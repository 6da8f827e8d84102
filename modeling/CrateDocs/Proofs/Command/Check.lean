import CrateDocs.Command.Run
import CrateDocs.Proofs.Command.Flags
import CrateDocs.Proofs.Crate.Bare
import CrateDocs.Proofs.Crate.Decode
import CrateDocs.Proofs.Crate.Strictness

/-!
# A strict check and one that denies problems

A strict check stops at the first problem of a document. A check that denies problems lists them all
and then fails. Both accept the same documents, and print the same about those they accept.
-/

namespace CrateDocs

open Decode

/-- A strict decoding is any other one with its first report made fatal. -/
theorem firstIsFatal_decodeBytes (mode : Mode) (bytes : ByteArray) :
    FirstIsFatal (decodeBytes .strict bytes) (decodeBytes mode bytes) := by
  unfold decodeBytes
  cases Json.ofBytes? bytes with
  | none => exact ⟨.malformed, rfl⟩
  | some document =>
    have hlenient := firstIsFatal_decode document
    cases mode with
    | lenient => exact hlenient
    | strict => exact .of_nil fun decoded h => (hlenient.ok_iff.1 h).1

namespace Command

/-- Whether two outcomes accept a document alike: with the same exit code, and if it is zero, with
the same output, which says last that there are no problems. -/
structure Outcome.SameVerdict (outcome other : Outcome) : Prop where
  exitCode_eq : outcome.exitCode = other.exitCode
  output_eq : outcome.exitCode = 0 → outcome.output = other.output
  noDiagnostics : outcome.exitCode = 0 → ∃ front, outcome.output = front ++ "  no diagnostics\n"

/-- What comes of a check once the document has been read. -/
def checkDecoded (path : String) (denyDiagnostics : Bool) : Except DecodeError Decoded → Outcome
  | .ok decoded => check decoded denyDiagnostics
  | .error error => .failed (.documentInvalid path error)

/-- The output about a document without problems. -/
theorem exists_output_check (crate : Crate) (denyDiagnostics : Bool) :
    ∃ front, (check ⟨crate, []⟩ denyDiagnostics).output = front ++ "  no diagnostics\n" := by
  simp only [check, Outcome.output, Report.checkLines, List.map_append, String.join_append]
  exact ⟨_, rfl⟩

namespace Outcome.SameVerdict

variable {outcome other : Outcome}

theorem of_exitCode {code : Nat} (hne : code ≠ 0) (h : outcome.exitCode = code)
    (hother : other.exitCode = code) : SameVerdict outcome other where
  exitCode_eq := h.trans hother.symm
  output_eq hzero := absurd (h.symm.trans hzero) hne
  noDiagnostics hzero := absurd (h.symm.trans hzero) hne

theorem of_firstIsFatal {strict lenient : Except DecodeError Decoded}
    (h : FirstIsFatal strict lenient) (path : String) :
    SameVerdict (checkDecoded path false strict) (checkDecoded path true lenient) := by
  unfold FirstIsFatal at h
  split at h
  · rename_i crate
    rw [h]
    exact ⟨rfl, fun _ => rfl, fun _ => exists_output_check crate false⟩
  · rw [h]
    exact of_exitCode Nat.one_ne_zero rfl rfl
  · obtain ⟨error, h⟩ := h
    rw [h]
    exact of_exitCode Nat.one_ne_zero rfl rfl

end Outcome.SameVerdict

theorem run_of_ofArguments? (files : Files) {arguments : List String} {invocation : Invocation}
    (h : Invocation.ofArguments? arguments = some invocation) :
    run files arguments = invocation.run files := by
  rw [run, h]

/-- A check reads the settings, then the document, and then decodes it. -/
theorem Invocation.run_check (files : Files) (invocation : Invocation)
    (denyDiagnostics strict : Bool) :
    { invocation with action := .check denyDiagnostics strict }.run files =
      match readSettings files invocation.config with
      | .error error => .failed error
      | .ok settings =>
        match readDocument files invocation.file
            (invocation.maxInputBytes.getD settings.maxInputBytes) with
        | .error error => .failed error
        | .ok content =>
          checkDecoded invocation.file denyDiagnostics
            (decodeBytes (.ofStrict (settings.strict || strict)) content) := by
  unfold run load
  cases readSettings files invocation.config with
  | error error => rfl
  | ok settings =>
    simp only [bind, Except.bind, override, Settings.mode]
    cases readDocument files invocation.file
        (invocation.maxInputBytes.getD settings.maxInputBytes) with
    | error error => rfl
    | ok content =>
      dsimp only
      cases decodeBytes (.ofStrict (settings.strict || strict)) content <;> rfl

theorem Invocation.run_check_of_decoded {files : Files} {invocation : Invocation}
    {denyDiagnostics strict : Bool} {settings : Settings} {content : ByteArray} {decoded : Decoded}
    (haction : invocation.action = .check denyDiagnostics strict)
    (hsettings : readSettings files invocation.config = .ok settings)
    (hdocument : readDocument files invocation.file
      (invocation.maxInputBytes.getD settings.maxInputBytes) = .ok content)
    (hdecoded : decodeBytes (.ofStrict (settings.strict || strict)) content = .ok decoded) :
    invocation.run files = check decoded denyDiagnostics := by
  have hrun := run_check files invocation denyDiagnostics strict
  rw [← haction] at hrun
  simp only [hrun, hsettings, hdocument, hdecoded, checkDecoded]

/-- What is read does not depend on the flag, and neither does what is accepted. -/
theorem Invocation.sameVerdict_give (files : Files) (invocation : Invocation) :
    Outcome.SameVerdict ((invocation.give .strict).run files)
      ((invocation.give .denyDiagnostics).run files) := by
  simp only [give, Flag.action, run_check, Bool.or_true, Bool.or_false]
  cases readSettings files invocation.config with
  | error error => exact .of_exitCode Nat.one_ne_zero rfl rfl
  | ok settings =>
    dsimp only
    cases readDocument files invocation.file
        (invocation.maxInputBytes.getD settings.maxInputBytes) with
    | error error => exact .of_exitCode Nat.one_ne_zero rfl rfl
    | ok content => exact .of_firstIsFatal (firstIsFatal_decodeBytes _ content) _

/-- Whatever is found under the paths, a check that is strict accepts the same documents as one that
denies problems. The other arguments are the same, in whichever order; the flag stands among them
before any two dashes. -/
theorem sameVerdict_run (files : Files) (before after : List String) (hdashes : "--" ∉ before)
    (hstrict : "--strict" ∉ beforeDashes (before ++ after))
    (hdeny : "--deny-diagnostics" ∉ beforeDashes (before ++ after)) :
    Outcome.SameVerdict (run files (before ++ "--strict" :: after))
      (run files (before ++ "--deny-diagnostics" :: after)) := by
  have hflags : ∀ text ∈ beforeDashes (before ++ after), ∀ flag : Flag, text ≠ flag.text := by
    intro text htext flag heq
    subst heq
    cases flag with
    | strict => exact hstrict htext
    | denyDiagnostics => exact hdeny htext
  change Outcome.SameVerdict (run files (before ++ Flag.strict.text :: after))
    (run files (before ++ Flag.denyDiagnostics.text :: after))
  rcases Invocation.ofArguments?_flag hdashes hflags with hrefused | ⟨invocation, hgiven⟩
  · simp only [run, hrefused]
    exact .of_exitCode (by decide) rfl rfl
  · rw [run_of_ofArguments? files (hgiven .strict),
      run_of_ofArguments? files (hgiven .denyDiagnostics)]
    exact invocation.sameVerdict_give files

/-- A document of one empty module. -/
def loneModule : Json :=
  BareCrate.document { index := [BareItem.entry { id := "0", inner := bareModule [] }] }

def loneModuleText : String :=
  "\x7b\"external_crates\":\x7b\x7d,\"format_version\":17,\"includes_private\":false,
    \"index\":\x7b\"0\":\x7b\"attrs\":[],\"crate_id\":0,\"id\":\"0\",
    \"inner\":\x7b\"is_crate\":true,\"is_stripped\":false,\"items\":[],\"tag\":\"Module\"\x7d,
    \"links\":\x7b\x7d,
    \"visibility\":\x7b\"tag\":\"Public\"\x7d\x7d\x7d,\"paths\":\x7b\x7d,\"root\":\"0\"\x7d"

def loneModuleFiles : Files := fun path =>
  if path = "crate.json" then .file loneModuleText.toUTF8 else .unreachable .missing

set_option maxRecDepth 10000 in
theorem sameVerdict_loneModule :
    let before := ["check", "--max-input-bytes=4096"]
    let after := ["--", "crate.json"]
    (run loneModuleFiles (before ++ "--strict" :: after)).exitCode = 0 ∧
      Outcome.SameVerdict (run loneModuleFiles (before ++ "--strict" :: after))
        (run loneModuleFiles (before ++ "--deny-diagnostics" :: after)) := by
  intro before after
  refine ⟨?_, sameVerdict_run loneModuleFiles before after (by decide) (by decide) (by decide)⟩
  have harguments : Invocation.ofArguments? (before ++ "--strict" :: after) =
      some ⟨none, none, "crate.json", some 4096, .check false true⟩ := by decide +kernel
  have hdocument : readDocument loneModuleFiles "crate.json" 4096 = .ok loneModuleText.toUTF8 := rfl
  have hchars : loneModuleText.toList = _ := String.toList_ofList
  have hparsed : Json.ofText? loneModuleText = some loneModule := by
    unfold Json.ofText? Json.ofTextWithin? Lexeme.ofText?
    rw [hchars]
    decide +kernel
  obtain ⟨crate, hdecoded⟩ : ∃ crate, decode .strict loneModule = .ok ⟨crate, []⟩ := ⟨_, rfl⟩
  have hbytes : decodeBytes .strict loneModuleText.toUTF8 = .ok ⟨crate, []⟩ := by
    rw [decodeBytes_toUTF8, decodeText, hparsed]
    exact hdecoded
  have hrun := run_of_ofArguments? loneModuleFiles harguments
  rw [hrun.trans (Invocation.run_check_of_decoded rfl rfl hdocument hbytes)]
  rfl

end Command

end CrateDocs
