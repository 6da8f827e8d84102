import CrateDocs.Command.Arguments
import CrateDocs.Command.Files
import CrateDocs.Command.Report

/-!
# Running a command

A run is a function of the arguments and of what is found under each path. The settings file is
read first, then the document. Nothing is printed by a run that ends with an error.
-/

namespace CrateDocs

namespace Command

/-- Why a run ends before it prints anything. -/
inductive HostError
  | configUnreadable (path : String) (problem : ReadProblem)
  | configNotText (path : String)
  | configInvalid (path : String)
  | documentMissing (path : String)
  | documentTooLarge (path : String) (size : Nat) (limit : UInt64)
  | documentUnreadable (path : String) (problem : ReadProblem)
  | documentInvalid (path : String) (error : DecodeError)
deriving DecidableEq

namespace HostError

def message : HostError → String
  | configUnreadable path _ | configNotText path => "Failed to read config at " ++ path
  | configInvalid path => "Invalid config in " ++ path
  | documentMissing path => "documentation not found at " ++ path
  | documentTooLarge path size limit =>
    path ++ " is " ++ toString size ++ " bytes, over the " ++ toString limit.toNat ++
      " byte limit"
  | documentUnreadable path problem => "failed to read " ++ path ++ ": " ++ problem.message
  | documentInvalid path _ => "Failed to decode " ++ path

def cause? : HostError → Option String
  | configUnreadable _ problem | documentUnreadable _ problem => some problem.message
  | configNotText _ => some "stream did not contain valid UTF-8"
  | configInvalid _ => some Settings.parseProblem
  | documentMissing _ | documentTooLarge _ _ _ => none
  | documentInvalid _ error => some error.message

end HostError

inductive Outcome
  | usage
  | failed (error : HostError)
  | finished (success : Bool) (lines : List String)
deriving DecidableEq

namespace Outcome

def exitCode : Outcome → Nat
  | usage => 2
  | failed _ => 1
  | finished success _ => if success then 0 else 1

def output : Outcome → String
  | usage | failed _ => ""
  | finished _ lines => String.join (lines.map (· ++ "\n"))

end Outcome

/-- The settings that the settings file gives, or the default ones. -/
def readSettings (files : Files) : Option String → Except HostError Settings
  | none => .ok {}
  | some path => do
    let content ← (files path).read.mapError (.configUnreadable path)
    match String.fromUTF8? content with
    | none => .error (.configNotText path)
    | some text =>
      match Settings.ofText? text with
      | none => .error (.configInvalid path)
      | some settings => .ok settings

def documentProblem (path : String) : ReadProblem → HostError
  | .missing => .documentMissing path
  | problem => .documentUnreadable path problem

/-- The content of a document, whose size must not exceed the limit. -/
def readDocument (files : Files) (path : String) (limit : UInt64) :
    Except HostError ByteArray := do
  let size ← (files path).size.mapError (documentProblem path)
  if size > limit.toNat then .error (.documentTooLarge path size limit)
  else (files path).read.mapError (documentProblem path)

def load (files : Files) (path : String) (settings : Settings) : Except HostError Decoded := do
  let content ← readDocument files path settings.maxInputBytes
  (decodeBytes settings.mode content).mapError (.documentInvalid path)

/-- The settings after those of the command line. -/
def Invocation.override (invocation : Invocation) (settings : Settings) : Settings where
  strict :=
    match invocation.action with
    | .check _ strict => settings.strict || strict
    | .lookup _ _ => settings.strict
  maxInputBytes := invocation.maxInputBytes.getD settings.maxInputBytes
  logFormat := invocation.logFormat.getD settings.logFormat

def check (decoded : Decoded) (denyDiagnostics : Bool) : Outcome :=
  .finished (decoded.diagnostics.isEmpty || !denyDiagnostics) (Report.checkLines decoded)

/-- What a text stands for: an item by its identifier, or else by its path. -/
def resolve? (crate : Crate) (query : String) : Option Node :=
  crate.lookup? ⟨query⟩ <|> crate.lookupPath? (.parse query)

def lookup (crate : Crate) (query : String) (limit : Nat) : Outcome :=
  match resolve? crate query with
  | some node => .finished true (Report.nodeLines crate node)
  | none => .finished false (Report.missLines query (crate.suggest query limit))

def Invocation.run (files : Files) (invocation : Invocation) : Outcome :=
  let result : Except HostError Outcome := do
    let settings ← readSettings files invocation.config
    let decoded ← load files invocation.file (invocation.override settings)
    return match invocation.action with
      | .check denyDiagnostics _ => check decoded denyDiagnostics
      | .lookup query limit => lookup decoded.crate query limit
  match result with
  | .ok outcome => outcome
  | .error error => .failed error

def run (files : Files) (arguments : List String) : Outcome :=
  match Invocation.ofArguments? arguments with
  | some invocation => invocation.run files
  | none => .usage

end Command

end CrateDocs
