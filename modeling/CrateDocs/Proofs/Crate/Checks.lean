import CrateDocs.Proofs.Indifference.Decode

/-!
# The checks of a decoding

A decoding makes its checks one after another and ends at the first that fails. It is taken apart
into these checks here, so that its error is that of the first of them to fail.
-/

namespace CrateDocs

open Json Reading

namespace Reading

variable {ε α β : Type}

/-- Whether a computation succeeds, and with which error if it does not. -/
def outcome (x : Except ε α) : Except ε Unit :=
  x.map fun _ => ()

theorem outcome_eq_ok {x : Except ε α} : outcome x = .ok () ↔ ∃ a, x = .ok a := by
  cases x <;> simp [outcome, Except.map]

theorem outcome_eq_error {x : Except ε α} {error : ε} :
    outcome x = .error error ↔ x = .error error := by
  cases x <;> simp [outcome, Except.map]

/-- The first step of two comes before the outcome of the other. -/
theorem outcome_bind {x : Except ε α} {f : α → Except ε β} {rest : Except ε Unit}
    (h : ∀ a, x = .ok a → outcome (f a) = rest) :
    outcome (x >>= f) = outcome x >>= fun _ => rest := by
  cases hx : x with
  | error error => rfl
  | ok a => exact h a hx

theorem outcome_bind_unit {x : Except ε Unit} {f : Unit → Except ε β} {rest : Except ε Unit}
    (h : x = .ok () → outcome (f ()) = rest) : outcome (x >>= f) = x >>= fun _ => rest := by
  cases hx : x with
  | error error => rfl
  | ok _ => exact h hx

theorem outcome_mapM_cons {f : α → Except ε β} {a : α} {as : List α} :
    outcome ((a :: as).mapM f) = outcome (f a) >>= fun _ => outcome (as.mapM f) := by
  rw [List.mapM_cons]
  cases f a with
  | error error => rfl
  | ok b => cases as.mapM f <;> rfl

/-- A traversal fails with the error of the first element that fails. -/
theorem forM_eq_error_iff [DecidableEq α] {f : α → Except ε Unit} {as : List α} {error : ε} :
    as.forM f = .error error ↔
      ∃ a ∈ as, (∀ b ∈ as.takeWhile (· ≠ a), f b = .ok ()) ∧ f a = .error error := by
  induction as with
  | nil => simp [List.forM, pure, Except.pure]
  | cons first as ih =>
    rw [List.forM, bind_eq_error]
    constructor
    · intro h
      rcases h with hfirst | ⟨_, hfirst, hrest⟩
      · exact ⟨first, List.mem_cons_self, by simp, hfirst⟩
      · obtain ⟨a, ha, hbefore, herror⟩ := ih.1 hrest
        have hne : first ≠ a := by
          rintro rfl
          rw [hfirst] at herror
          cases herror
        refine ⟨a, List.mem_cons_of_mem _ ha, ?_, herror⟩
        rw [List.takeWhile_cons_of_pos (by simpa using hne)]
        exact List.forall_mem_cons.2 ⟨hfirst, hbefore⟩
    · intro h
      rcases h with ⟨a, ha, hbefore, herror⟩
      by_cases hne : first = a
      · exact .inl (hne ▸ herror)
      · rw [List.takeWhile_cons_of_pos (by simpa using hne)] at hbefore
        obtain ⟨hfirst, hbefore⟩ := List.forall_mem_cons.1 hbefore
        have ha := (List.mem_cons.1 ha).resolve_left fun heq => hne heq.symm
        exact .inr ⟨(), hfirst, ih.2 ⟨a, ha, hbefore, herror⟩⟩

end Reading

namespace Decode

variable {mode : Mode} {v w document other : Json} {r : Record v} {r' : Record w}

/-- What may fail in a decoding. -/
inductive Check
  /-- The document is an object. -/
  | object
  /-- It has the supported version. -/
  | version
  | presence (field : String)
  | root
  | includesPrivate
  | crateVersion
  | externalCrates
  /-- The index is an object, and its entries are intact unless broken ones are tolerated. -/
  | index
  | paths
  /-- No reference leads nowhere, unless that is tolerated. -/
  | references
  /-- The root is a module of the index. -/
  | rootModule
deriving DecidableEq

/-- The checks in the order in which they are made. -/
def checks : List Check :=
  .object :: .version :: (requiredFields.map .presence ++
    [.root, .includesPrivate, .crateVersion, .externalCrates, .index, .paths, .references,
      .rootModule])

/-- The crate of a document, apart from the checks that concern it as a whole. -/
def assemble (r : Record v) : Except DecodeError Crate := do
  let formatVersion ← Decode.version r
  let root ← r.id "root"
  let includesPrivate ← r.bool "includes_private"
  let version ← r.string? "crate_version"
  let externalCrates ← r.entries "external_crates" (ExternalCrate.readEntry · ·)
  let results ← entries r
  let paths ← r.entries "paths" (ItemSummary.readEntry · ·)
  return {
    root, version, includesPrivate, formatVersion
    index := indexOf (kept results)
    paths := .ofEntries paths
    externalCrates := .ofEntries externalCrates }

namespace Check

/-- A check of a document that is an object. -/
def ofRecord (mode : Mode) (r : Record v) : Check → Except DecodeError Unit
  | object => .ok ()
  | version => outcome (Decode.version r)
  | presence field => outcome (liftM (r.required field))
  | root => outcome (liftM (r.id "root"))
  | includesPrivate => outcome (liftM (r.bool "includes_private"))
  | crateVersion => outcome (liftM (r.string? "crate_version"))
  | externalCrates =>
    outcome (liftM (r.entries "external_crates" (ExternalCrate.readEntry · ·)))
  | index => do mode.tolerate (dropped (← entries r))
  | paths => outcome (liftM (r.entries "paths" (ItemSummary.readEntry · ·)))
  | references => do mode.tolerate (← assemble r).danglingReferences
  | rootModule => do (← assemble r).checkRoot

def run (mode : Mode) (document : Json) (check : Check) : Except DecodeError Unit := do
  check.ofRecord mode (← document.asRecord)

/-- The checks that come before a check. -/
def earlier (check : Check) : List Check :=
  checks.takeWhile (· ≠ check)

theorem run_eq_ofRecord (mode : Mode) (r : Record document) (check : Check) :
    check.run mode document = check.ofRecord mode r := by
  have hr : document.asRecord = .ok r := asRecord_eq_ok.2 r.eq_obj
  rw [run, hr, liftM_ok_bind]

end Check

theorem forM_presence (r : Record v) :
    (requiredFields.map Check.presence).forM (Check.ofRecord mode r) =
      outcome (liftM (presence r) : Except DecodeError Unit) := by
  unfold presence
  induction requiredFields with
  | nil => rfl
  | cons field fields ih =>
    rw [List.map_cons, List.forM, List.forM, ih, Check.ofRecord]
    cases r.required field <;> rfl

theorem forM_append_eq {ε : Type} {f : Check → Except ε Unit} (before after : List Check) :
    (before ++ after).forM f = before.forM f >>= fun _ => after.forM f := by
  induction before with
  | nil => rfl
  | cons check before ih =>
    rw [List.cons_append, List.forM, List.forM, ih]
    cases f check <;> rfl

theorem outcome_decode (mode : Mode) (document : Json) :
    outcome (decode mode document) = checks.forM (Check.run mode document) := by
  cases hr : document.asRecord with
  | error fault =>
    unfold decode checks
    rw [hr, List.forM, Check.run, hr]
    rfl
  | ok r =>
    rw [funext (Check.run_eq_ofRecord mode r)]
    unfold decode checks
    rw [hr, liftM_ok_bind, List.forM, List.forM, forM_append_eq, forM_presence]
    apply outcome_bind
    intro formatVersion hversion
    apply outcome_bind
    intro _ hpresence
    apply outcome_bind
    intro root hroot
    apply outcome_bind
    intro includesPrivate hprivate
    apply outcome_bind
    intro crateVersion hcrateVersion
    apply outcome_bind
    intro externalCrates hcrates
    rw [List.forM, Check.ofRecord]
    cases hresults : (liftM (entries r) : Except DecodeError _) with
    | error error => rfl
    | ok results =>
      apply outcome_bind_unit
      intro _
      apply outcome_bind
      intro summaries hsummaries
      have hassemble : assemble r = .ok {
          root, version := crateVersion, includesPrivate, formatVersion
          index := indexOf (kept results)
          paths := .ofEntries summaries
          externalCrates := .ofEntries externalCrates } := by
        unfold assemble
        rw [hversion, hroot, hprivate, hcrateVersion, hcrates, hresults, hsummaries]
        rfl
      rw [List.forM, List.forM, Check.ofRecord, Check.ofRecord, hassemble]
      apply outcome_bind_unit
      intro _
      apply outcome_bind_unit
      intro _
      rfl

namespace Check

/-- What comes before an earlier check comes before a later one. -/
theorem earlier_subset {check c : Check} (h : c ∈ check.earlier) : c.earlier ⊆ check.earlier := by
  unfold earlier at h ⊢
  generalize checks = all at h ⊢
  induction all with
  | nil => cases h
  | cons first rest ih =>
    have hfirst : first ≠ check := by
      rintro rfl
      rw [List.takeWhile_cons_of_neg (by simp)] at h
      cases h
    have hkept : (first :: rest).takeWhile (· ≠ check) = first :: rest.takeWhile (· ≠ check) :=
      List.takeWhile_cons_of_pos (by simpa using hfirst)
    rw [hkept] at h ⊢
    by_cases hc : first = c
    · rw [List.takeWhile_cons_of_neg (by simpa using hc)]
      exact List.nil_subset _
    · rw [List.takeWhile_cons_of_pos (by simpa using hc)]
      have hrest := (List.mem_cons.1 h).resolve_left fun heq => hc heq.symm
      exact List.cons_subset_cons first (ih hrest)

/-- Whether a check is the first of a document to fail. -/
structure IsFirstFailure (mode : Mode) (document : Json) (check : Check) (error : DecodeError) :
    Prop where
  mem : check ∈ checks
  earlier : ∀ c ∈ check.earlier, c.run mode document = .ok ()
  run : check.run mode document = .error error

end Check

end Decode

/-- A decoding fails at the check that is the first to fail, with its error. -/
theorem decode_eq_error_iff {mode : Mode} {document : Json} {error : DecodeError} :
    decode mode document = .error error ↔
      ∃ check : Decode.Check, check.IsFirstFailure mode document error := by
  rw [← outcome_eq_error, Decode.outcome_decode, forM_eq_error_iff]
  constructor
  · intro h
    rcases h with ⟨check, hmem, hearlier, hrun⟩
    exact ⟨check, hmem, hearlier, hrun⟩
  · intro h
    rcases h with ⟨check, hmem, hearlier, hrun⟩
    exact ⟨check, hmem, hearlier, hrun⟩

theorem Decode.version_eq_error {document : Json} {r : Record document} {number : Int}
    (hmember : member? r.members "format_version" = some (.num (.integer number)))
    (hnumber : number ≠ 17) : Decode.version r = .error (.unsupportedVersion number) := by
  obtain ⟨part, hpart⟩ := Record.exists_part hmember
  unfold Decode.version Record.required
  rw [Record.get?_eq_some.2 (hpart ▸ hmember), liftM_ok_bind, hpart]
  exact if_neg hnumber

end CrateDocs
