import CrateDocs.Proofs.Command.Check

/-!
# The settings in force

A setting may come from the settings file or from the command line, and a run does not tell where it
comes from. A check is strict if either of them says so, a lookup only if the file does; a limit on
the command line stands in for that of the file. The limit is a threshold: a document that is larger
is refused whatever is in it, and up to its own size no limit makes a difference.
-/

namespace CrateDocs

namespace Command

/-- A command line that is understood, and the files among which it is run. The settings file is
valid if there is one. -/
structure Setup where
  files : Files
  arguments : List String
  invocation : Invocation
  settings : Settings
  invocation_eq : Invocation.ofArguments? arguments = some invocation
  settings_eq : readSettings files invocation.config = .ok settings

/-- What a command does with a document, apart from the mode of decoding. -/
inductive Task
  | check (denyDiagnostics : Bool)
  | lookup (query : String) (limit : Nat)
deriving DecidableEq

def Action.task : Action → Task
  | .check denyDiagnostics _ => .check denyDiagnostics
  | .lookup query limit => .lookup query limit

/-- What comes of a task once the document has been decoded. -/
def Task.answer (file : String) : Task → Except DecodeError Decoded → Outcome
  | .check denyDiagnostics, .ok decoded => Command.check decoded denyDiagnostics
  | .lookup query limit, .ok decoded => Command.lookup decoded.crate query limit
  | _, .error error => .failed (.documentInvalid file error)

namespace Setup

def outcome (setup : Setup) : Outcome :=
  run setup.files setup.arguments

def file (setup : Setup) : String :=
  setup.invocation.file

/-- What is found under the path of the document. -/
def document (setup : Setup) : FileState :=
  setup.files setup.file

def task (setup : Setup) : Task :=
  setup.invocation.action.task

/-- The limit in force: that of the command line, or else that of the settings file. -/
def limit (setup : Setup) : UInt64 :=
  setup.invocation.maxInputBytes.getD setup.settings.maxInputBytes

/-- Whether problems are fatal. Only a check can be told so on the command line. -/
def strict (setup : Setup) : Bool :=
  match setup.invocation.action with
  | .check _ strict => setup.settings.strict || strict
  | .lookup _ _ => setup.settings.strict

/-- Whether two setups ask the same of the same document, apart from the limit. -/
structure Alike (setup other : Setup) : Prop where
  file_eq : setup.file = other.file
  document_eq : setup.document = other.document
  task_eq : setup.task = other.task
  strict_eq : setup.strict = other.strict

/-- Whether the document is refused for its size. Nothing of it is decoded: any other content of
this size is refused in the same way, whatever is asked of it. -/
structure Refused (setup : Setup) (size : Nat) : Prop where
  outcome_eq : setup.outcome = .failed (.documentTooLarge setup.file size setup.limit)
  output_eq : setup.outcome.output = ""
  undecoded : ∀ (other : Setup) (content : ByteArray), other.file = setup.file →
    other.limit = setup.limit → other.document = .file content → content.size = size →
    other.outcome = setup.outcome

variable {setup other : Setup} {content : ByteArray}

/-- A run reads the document within the limit, then decodes it and does its task. -/
theorem outcome_eq (setup : Setup) :
    setup.outcome =
      match readDocument setup.files setup.file setup.limit with
      | .error error => .failed error
      | .ok content =>
        setup.task.answer setup.file (decodeBytes (.ofStrict setup.strict) content) := by
  obtain ⟨files, arguments, invocation, settings, hinvocation, hsettings⟩ := setup
  obtain ⟨config, logFormat, path, maxInputBytes, action⟩ := invocation
  rw [outcome, run_of_ofArguments? files hinvocation]
  simp only [Invocation.run, load, hsettings, bind, Except.bind, Invocation.override,
    Settings.mode, file, limit, task, strict]
  cases readDocument files path (maxInputBytes.getD settings.maxInputBytes) with
  | error error => rfl
  | ok content =>
    cases action with
    | check denyDiagnostics strict =>
      dsimp only
      cases decodeBytes (.ofStrict (settings.strict || strict)) content <;> rfl
    | lookup query limit =>
      dsimp only
      cases decodeBytes (.ofStrict settings.strict) content <;> rfl

theorem readDocument_congr (h : setup.Alike other) (limit : UInt64) :
    readDocument setup.files setup.file limit = readDocument other.files other.file limit := by
  have hdocument : setup.files setup.file = other.files other.file := h.document_eq
  rw [readDocument, readDocument, hdocument, h.file_eq]

/-- Where a setting comes from does not matter. -/
theorem Alike.outcome_eq (h : setup.Alike other) (hlimit : setup.limit = other.limit) :
    setup.outcome = other.outcome := by
  rw [Setup.outcome_eq, Setup.outcome_eq, readDocument_congr h, h.file_eq, h.task_eq, h.strict_eq,
    hlimit]

theorem outcome_of_lt (h : setup.document = .file content)
    (hsize : setup.limit.toNat < content.size) :
    setup.outcome = .failed (.documentTooLarge setup.file content.size setup.limit) := by
  have hread : readDocument setup.files setup.file setup.limit =
      .error (.documentTooLarge setup.file content.size setup.limit) := by
    have hdocument : setup.files setup.file = .file content := h
    rw [readDocument, hdocument]
    exact if_pos hsize
  rw [Setup.outcome_eq, hread]

theorem outcome_of_le (h : setup.document = .file content)
    (hsize : content.size ≤ setup.limit.toNat) :
    setup.outcome =
      setup.task.answer setup.file (decodeBytes (.ofStrict setup.strict) content) := by
  have hread : readDocument setup.files setup.file setup.limit = .ok content := by
    have hdocument : setup.files setup.file = .file content := h
    rw [readDocument, hdocument]
    exact if_neg (Nat.not_lt.2 hsize)
  rw [Setup.outcome_eq, hread]

/-- No document that is decoded is found to be too large. -/
theorem answer_ne_documentTooLarge (task : Task) (file path : String) (size : Nat) (limit : UInt64)
    (decoding : Except DecodeError Decoded) :
    task.answer file decoding ≠ .failed (.documentTooLarge path size limit) := by
  cases decoding with
  | error error => cases task <;> simp [Task.answer]
  | ok decoded =>
    cases task with
    | check denyDiagnostics => simp [Task.answer, check]
    | lookup query limit =>
      simp only [Task.answer, lookup]
      split <;> simp

theorem refused_iff (h : setup.document = .file content) :
    setup.Refused content.size ↔ setup.limit.toNat < content.size := by
  constructor
  · intro hrefused
    by_contra hle
    have hdecoded := outcome_of_le h (Nat.not_lt.1 hle)
    rw [hrefused.outcome_eq] at hdecoded
    exact answer_ne_documentTooLarge _ _ _ _ _ _ hdecoded.symm
  · intro hlt
    have houtcome := outcome_of_lt h hlt
    refine ⟨houtcome, by rw [houtcome]; rfl, ?_⟩
    intro other content' hfile hlimit hdocument hsize
    rw [houtcome, outcome_of_lt hdocument (by rw [hsize, hlimit]; exact hlt), hsize, hlimit, hfile]

/-- Where a setting comes from does not matter, and the limit matters only as a threshold for the
size of the document. -/
theorem interchangeable :
    (∀ setup other : Setup, setup.Alike other → setup.limit = other.limit →
      setup.outcome = other.outcome) ∧
    ∀ (setup : Setup) (content : ByteArray), setup.document = .file content →
      (setup.Refused content.size ↔ setup.limit.toNat < content.size) ∧
      ∀ other : Setup, setup.Alike other → content.size ≤ setup.limit.toNat →
        content.size ≤ other.limit.toNat → setup.outcome = other.outcome := by
  refine ⟨fun setup other h hlimit => h.outcome_eq hlimit, fun setup content h => ?_⟩
  refine ⟨refused_iff h, fun other halike hsize hother => ?_⟩
  have hsame : other.document = .file content := halike.document_eq.symm.trans h
  rw [outcome_of_le h hsize, outcome_of_le hsame hother, halike.file_eq, halike.task_eq,
    halike.strict_eq]

def strictSettingsText : String :=
  "strict = true\nmax_input_bytes = 4096\n"

def strictSettingsFiles : Files := fun path =>
  if path = "settings.toml" then .file strictSettingsText.toUTF8 else loneModuleFiles path

/-- The same two settings in a file and on the command line, then another limit that the document
does not reach, and one that it exceeds. -/
theorem interchangeable_loneModule :
    ∃ byFile byFlags roomy tight : Setup,
      byFile.arguments = ["check", "crate.json", "--config=settings.toml"] ∧
      byFlags.arguments = ["check", "--strict", "crate.json", "--max-input-bytes", "4096"] ∧
      byFile.outcome = byFlags.outcome ∧
      roomy.arguments = ["check", "--strict", "crate.json"] ∧
      byFile.outcome = roomy.outcome ∧
      tight.arguments = ["--config", "settings.toml", "check", "--max-input-bytes=16",
        "crate.json"] ∧
      tight.Refused loneModuleText.toUTF8.size := by
  have htext : String.fromUTF8? strictSettingsText.toUTF8 = some strictSettingsText :=
    dif_pos strictSettingsText.isValidUTF8
  have hparsed : Settings.ofText? strictSettingsText =
      some { strict := true, maxInputBytes := 4096 } := by decide +kernel
  have hsettings : readSettings strictSettingsFiles (some "settings.toml") =
      .ok { strict := true, maxInputBytes := 4096 } := by
    have hfile : strictSettingsFiles "settings.toml" = .file strictSettingsText.toUTF8 := rfl
    simp only [readSettings, hfile, FileState.read, Except.mapError, bind, Except.bind, htext,
      hparsed]
  have hsize : loneModuleText.toUTF8.size = 271 := by decide +kernel
  let byFile : Setup := {
    files := strictSettingsFiles
    arguments := ["check", "crate.json", "--config=settings.toml"]
    invocation := ⟨some "settings.toml", none, "crate.json", none, .check false false⟩
    settings := _
    invocation_eq := by decide +kernel
    settings_eq := hsettings }
  let byFlags : Setup := {
    files := strictSettingsFiles
    arguments := ["check", "--strict", "crate.json", "--max-input-bytes", "4096"]
    invocation := ⟨none, none, "crate.json", some 4096, .check false true⟩
    settings := {}
    invocation_eq := by decide +kernel
    settings_eq := rfl }
  let roomy : Setup := {
    files := strictSettingsFiles
    arguments := ["check", "--strict", "crate.json"]
    invocation := ⟨none, none, "crate.json", none, .check false true⟩
    settings := {}
    invocation_eq := by decide +kernel
    settings_eq := rfl }
  let tight : Setup := {
    files := strictSettingsFiles
    arguments := ["--config", "settings.toml", "check", "--max-input-bytes=16", "crate.json"]
    invocation := ⟨some "settings.toml", none, "crate.json", some 16, .check false false⟩
    settings := _
    invocation_eq := by decide +kernel
    settings_eq := hsettings }
  refine ⟨byFile, byFlags, roomy, tight, rfl, rfl, ?_, rfl, ?_, rfl, ?_⟩
  · exact interchangeable.1 _ _ ⟨rfl, rfl, rfl, rfl⟩ rfl
  · exact (interchangeable.2 byFile loneModuleText.toUTF8 rfl).2 _ ⟨rfl, rfl, rfl, rfl⟩
      (hsize.trans_le (by decide : 271 ≤ 4096)) (hsize.trans_le (by decide : 271 ≤ 268435456))
  · have hlt : 16 < loneModuleText.toUTF8.size := by omega
    exact (interchangeable.2 tight loneModuleText.toUTF8 rfl).1.2 hlt

end Setup

end Command

end CrateDocs
