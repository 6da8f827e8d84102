import CrateDocs.Settings.Basic
import CrateDocs.Unsigned

/-!
# Command lines

A command line names a command and gives it a file, options, and for a lookup a text to look up.
Two options are common to all commands and may also stand before the name of the command; one that
stands after it counts more. An option is given once on either side. After two dashes nothing is an
option.

Requests for help, `--help` and `-h` on any level and the command `help`, are left out: here they
are command lines that are not understood. The program prints an account of its usage on them and
ends well, without reading a file.
-/

namespace CrateDocs

namespace Command

inductive Action
  /-- Decode a document and report its problems. -/
  | check (denyDiagnostics strict : Bool)
  /-- Describe what an identifier or a path stands for. -/
  | lookup (query : String) (limit : Nat)
deriving DecidableEq

structure Invocation where
  config : Option String
  logFormat : Option LogFormat
  file : String
  maxInputBytes : Option UInt64
  action : Action
deriving DecidableEq

inductive Argument
  | separator
  /-- An option with a long name, and a value if there is an equals sign. -/
  | long (name : String) (value : Option String)
  /-- An option of one letter, and what follows the letter. -/
  | short (letter : Char) (rest : List Char)
  | plain (text : String)
deriving DecidableEq

def Argument.ofText (text : String) : Argument :=
  match text.toList with
  | ['-', '-'] => .separator
  | '-' :: '-' :: rest =>
    let name := String.ofList (rest.takeWhile (· != '='))
    match rest.dropWhile (· != '=') with
    | _ :: value => .long name (some (String.ofList value))
    | [] => .long name none
  | '-' :: letter :: rest => .short letter rest
  | _ => .plain text

inductive OptionName
  | config
  | logFormat
  | strict
  | denyDiagnostics
  | maxInputBytes
  | limit
deriving DecidableEq

/-- Where on a command line an argument stands: before the name of a command, or after it. -/
inductive Level
  | top
  | check
  | lookup
deriving DecidableEq

/-- The options of one level, by their long names. -/
def Level.options : Level → List (String × OptionName)
  | .top => [("config", .config), ("log-format", .logFormat)]
  | .check =>
    [("config", .config), ("log-format", .logFormat), ("strict", .strict),
      ("deny-diagnostics", .denyDiagnostics), ("max-input-bytes", .maxInputBytes)]
  | .lookup =>
    [("config", .config), ("log-format", .logFormat), ("limit", .limit),
      ("max-input-bytes", .maxInputBytes)]

/-- How many arguments other than options may stand on one level. -/
def Level.arity : Level → Nat
  | .top => 0
  | .check => 1
  | .lookup => 2

/-- The level that the name of a command begins. -/
def Level.ofCommand? : String → Option Level
  | "check" => some .check
  | "lookup" => some .lookup
  | _ => none

def OptionName.isFlag : OptionName → Bool
  | .strict | .denyDiagnostics => true
  | .config | .logFormat | .maxInputBytes | .limit => false

structure Options where
  config : Slot String := none
  logFormat : Slot LogFormat := none
  strict : Slot Unit := none
  denyDiagnostics : Slot Unit := none
  maxInputBytes : Slot UInt64 := none
  limit : Slot Nat := none
deriving DecidableEq

namespace Options

/-- A path, which is not empty. -/
def path? (text : String) : Option String :=
  if text.isEmpty then none else some text

/-- The options after one more, with its value; a flag has an empty one. -/
def set (options : Options) (name : OptionName) (value : String) : Option Options :=
  match name with
  | .config => do
    return { options with config := ← Slot.fill? options.config (path? value) }
  | .logFormat => do
    return { options with logFormat := ← Slot.fill? options.logFormat (LogFormat.ofName? value) }
  | .strict => do
    return { options with strict := ← Slot.fill? options.strict (some ()) }
  | .denyDiagnostics => do
    return { options with denyDiagnostics := ← Slot.fill? options.denyDiagnostics (some ()) }
  | .maxInputBytes => do
    let size := (Unsigned.ofText? UInt64.size value).map UInt64.ofNat
    return { options with maxInputBytes := ← Slot.fill? options.maxInputBytes size }
  | .limit => do
    return { options with limit := ← Slot.fill? options.limit (Unsigned.ofText? UInt64.size value) }

end Options

/-- What has been understood of a command line. -/
structure Draft where
  level : Level := .top
  outer : Options := {}
  inner : Options := {}
  operands : List String := []
  /-- The option whose value comes next. -/
  awaiting : Option OptionName := none
  /-- Whether two dashes have been passed. -/
  separated : Bool := false

namespace Draft

def set (draft : Draft) (name : OptionName) (value : String) : Option Draft :=
  match draft.level with
  | .top => do
    return { draft with outer := ← draft.outer.set name value, awaiting := none }
  | _ => do
    return { draft with inner := ← draft.inner.set name value, awaiting := none }

def operand (draft : Draft) (text : String) : Option Draft :=
  if draft.operands.length < draft.level.arity then
    some { draft with operands := draft.operands ++ [text] }
  else
    none

def long (draft : Draft) (name : String) (value : Option String) : Option Draft := do
  let option ← draft.level.options.lookup name
  match option.isFlag, value with
  | true, none => draft.set option ""
  | true, some _ => none
  | false, some value => draft.set option value
  | false, none => some { draft with awaiting := some option }

/-- The draft after an option of one letter, of which there is one. -/
def short (draft : Draft) (letter : Char) (rest : List Char) : Option Draft :=
  if draft.level = .lookup ∧ letter = 'n' then
    match rest with
    | [] => some { draft with awaiting := some .limit }
    | '=' :: value => draft.set .limit (String.ofList value)
    | value => draft.set .limit (String.ofList value)
  else
    none

/-- The draft after one more argument; none if it may not stand there. -/
def step (draft : Draft) (text : String) : Option Draft :=
  if draft.separated then draft.operand text
  else
    match Argument.ofText text, draft.awaiting with
    | .plain value, some option => draft.set option value
    | _, some _ => none
    | .separator, none => some { draft with separated := true }
    | .long name value, none => draft.long name value
    | .short letter rest, none => draft.short letter rest
    | .plain word, none =>
      match draft.level with
      | .top => (Level.ofCommand? word).map fun level => { draft with level }
      | _ => draft.operand word

def action? (draft : Draft) : Option Action :=
  match draft.level, draft.operands with
  | .check, [_] => some (.check draft.inner.denyDiagnostics.isSome draft.inner.strict.isSome)
  | .lookup, [_, query] => some (.lookup query (draft.inner.limit.getD 5))
  | _, _ => none

def finish? (draft : Draft) : Option Invocation :=
  if draft.awaiting.isSome then none
  else do
    let action ← draft.action?
    let file ← Options.path? (← draft.operands.head?)
    return {
      config := draft.inner.config <|> draft.outer.config
      logFormat := draft.inner.logFormat <|> draft.outer.logFormat
      maxInputBytes := draft.inner.maxInputBytes
      file, action }

end Draft

def Invocation.ofArguments? (arguments : List String) : Option Invocation := do
  (← arguments.foldlM Draft.step {}).finish?

end Command

end CrateDocs
