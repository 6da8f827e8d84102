import CrateDocs.Crate.Mode
import CrateDocs.Settings.Statement
import CrateDocs.Slot

/-!
# Settings

The settings of the command line, and how a settings file gives them. A setting may be given once;
those that are not given have a default, and nothing but settings may be given. The format of the
log is named by a string, or by the single key of a table under which nothing stands.
-/

namespace CrateDocs

inductive LogFormat
  | compact
  | json
deriving DecidableEq

namespace LogFormat

def all : List LogFormat := [.compact, .json]

def name : LogFormat → String
  | compact => "compact"
  | json => "json"

def ofName? (name : String) : Option LogFormat :=
  all.find? fun format => format.name == name

theorem ofName?_name (format : LogFormat) : ofName? format.name = some format := by
  cases format <;> decide

end LogFormat

structure Settings where
  strict : Bool := false
  /-- The greatest size in bytes of a document that is read. -/
  maxInputBytes : UInt64 := 268435456
  logFormat : LogFormat := .compact
deriving DecidableEq

namespace Settings

def mode (settings : Settings) : Mode :=
  .ofStrict settings.strict

def parseProblem : String :=
  "Failed to parse config"

/-- The number that digits denote in a radix, where an underscore may stand between two digits. The
flag tells whether a digit came last. -/
def digitsValue? (radix value : Nat) (afterDigit : Bool) : List Char → Option Nat
  | [] => if afterDigit then some value else none
  | '_' :: rest => if afterDigit then digitsValue? radix value false rest else none
  | c :: rest => do
    let digit ← Text.hexDigit? c
    if digit < radix then digitsValue? radix (radix * value + digit) true rest else none

/-- The number that decimal digits denote, of which the first is zero only if it is alone. -/
def decimal? : List Char → Option Nat
  | ['0'] => some 0
  | '0' :: _ => none
  | digits => digitsValue? 10 0 false digits

/-- The natural number that a word denotes; zero may be written with a minus sign. -/
def natural? (word : String) : Option Nat :=
  match word.toList with
  | '0' :: 'x' :: digits => digitsValue? 16 0 false digits
  | '0' :: 'o' :: digits => digitsValue? 8 0 false digits
  | '0' :: 'b' :: digits => digitsValue? 2 0 false digits
  | '+' :: digits => decimal? digits
  | '-' :: digits => (decimal? digits).filter (· == 0)
  | digits => decimal? digits

def size? (word : String) : Option UInt64 := do
  let n ← natural? word
  if n < UInt64.size then some (.ofNat n) else none

def bool? (word : String) : Option Bool :=
  if word = "true" then some true else if word = "false" then some false else none

/-- The settings that have been given so far. -/
structure Draft where
  /-- The table that the last header opened. -/
  table : List String := []
  strict : Slot Bool := none
  maxInputBytes : Slot UInt64 := none
  logFormat : Slot LogFormat := none
  /-- Whether the table of the log format may no longer be opened. -/
  logFormatClosed : Bool := false

namespace Draft

/-- The draft after a value is given to the key with the given path. -/
def assign (draft : Draft) : List String → Value → Option Draft
  | ["strict"], .word word => do
    return { draft with strict := ← Slot.fill? draft.strict (bool? word) }
  | ["max_input_bytes"], .word word => do
    return { draft with maxInputBytes := ← Slot.fill? draft.maxInputBytes (size? word) }
  | ["log_format"], .text name => do
    return { draft with
      logFormat := ← Slot.fill? draft.logFormat (LogFormat.ofName? name), logFormatClosed := true }
  | ["log_format", name], .empty => do
    return { draft with
      logFormat := ← Slot.fill? draft.logFormat (LogFormat.ofName? name), logFormatClosed := true }
  | _, _ => none

/-- The draft after one more statement; none if it gives no setting, or one that has been given. -/
def apply (draft : Draft) : Statement → Option Draft
  | .header ["log_format"] =>
    if draft.logFormatClosed then none
    else some { draft with table := ["log_format"], logFormatClosed := true }
  | .header ["log_format", name] => do
    return { draft with
      table := ["log_format", name]
      logFormat := ← Slot.fill? draft.logFormat (LogFormat.ofName? name) }
  | .header _ => none
  | .assignment path value => draft.assign (draft.table ++ path) value

/-- The settings of a complete draft. A table for the log format must not be empty. -/
def finish? (draft : Draft) : Option Settings :=
  if draft.logFormatClosed && draft.logFormat.isNone then none
  else
    let default : Settings := {}
    some {
      strict := draft.strict.getD default.strict
      maxInputBytes := draft.maxInputBytes.getD default.maxInputBytes
      logFormat := draft.logFormat.getD default.logFormat }

end Draft

def ofText? (text : String) : Option Settings := do
  let statements ← Statement.ofText? text
  (← statements.foldlM Draft.apply {}).finish?

end Settings

end CrateDocs
