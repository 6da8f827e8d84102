import CrateDocs.Settings.Lexeme

/-!
# Statements of settings files

A settings file is a list of statements, each on a line of its own: a header opens a table, an
assignment gives a value to a key. The key of an assignment may lead through tables that are
written inline, as long as each of them has one entry: no setting needs more. Inside such a table
lines may end between a key, its equals sign, its value and the comma that may follow. Of arrays
and tables as values only the empty ones are read.
-/

namespace CrateDocs

namespace Settings

inductive Value
  | text (text : String)
  /-- A truth value or an integer, as it is written. -/
  | word (text : String)
  /-- An array or a table without entries. -/
  | empty
deriving DecidableEq

/-- One line of a settings file. -/
inductive Statement
  | header (path : List String)
  | assignment (path : List String) (value : Value)
deriving DecidableEq

namespace Statement

/-- What the lexemes so far call for. -/
inductive Expecting
  | statement
  | headerKey (path : List String)
  | headerEnd (path : List String)
  /-- A key of an assignment inside `depth` tables. -/
  | key (path : List String) (depth : Nat)
  | keyEnd (path : List String) (depth : Nat)
  /-- The equals sign of an assignment inside `depth` tables, on a line after its key. -/
  | equals (path : List String) (depth : Nat)
  | value (path : List String) (depth : Nat)
  /-- The end of an empty array. -/
  | arrayEnd (path : List String) (depth : Nat)
  /-- The end of an empty table, or the first key of another one. -/
  | table (path : List String) (depth : Nat)
  /-- The ends of `depth` tables, and then that of the line. -/
  | lineEnd (depth : Nat)
  /-- The end of the innermost of `depth + 1` tables, after a comma. -/
  | tableEnd (depth : Nat)

/-- The name that a lexeme is, if it can be a key. -/
def keyName? : Lexeme → Option String
  | .word name => some name
  | .string name => some name
  | _ => none

/-- A state after some lexemes, and the statements that they complete, last first. -/
abbrev State : Type := Expecting × List Statement

def assigned (path : List String) (value : Value) (depth : Nat) (done : List Statement) : State :=
  (.lineEnd depth, .assignment path value :: done)

/-- The state after one more lexeme; none if it may not stand there. -/
def step : State → Lexeme → Option State
  | (.statement, done), .newline => some (.statement, done)
  | (.statement, done), .openBracket => some (.headerKey [], done)
  | (.statement, done), lexeme => do some (.keyEnd [← keyName? lexeme] 0, done)
  | (.headerKey path, done), lexeme => do some (.headerEnd (path ++ [← keyName? lexeme]), done)
  | (.headerEnd path, done), .dot => some (.headerKey path, done)
  | (.headerEnd path, done), .closeBracket => some (.lineEnd 0, .header path :: done)
  | (.key path depth, done), lexeme => do some (.keyEnd (path ++ [← keyName? lexeme]) depth, done)
  | (.keyEnd path depth, done), .dot => some (.key path depth, done)
  | (.keyEnd path depth, done), .equals => some (.value path depth, done)
  | (.keyEnd path (depth + 1), done), .newline => some (.equals path (depth + 1), done)
  | (.equals path depth, done), .newline => some (.equals path depth, done)
  | (.equals path depth, done), .equals => some (.value path depth, done)
  | (.value path (depth + 1), done), .newline => some (.value path (depth + 1), done)
  | (.value path depth, done), .string text => some (assigned path (.text text) depth done)
  | (.value path depth, done), .longString text => some (assigned path (.text text) depth done)
  | (.value path depth, done), .word word => some (assigned path (.word word) depth done)
  | (.value path depth, done), .openBracket => some (.arrayEnd path depth, done)
  | (.value path depth, done), .openBrace => some (.table path depth, done)
  | (.arrayEnd path depth, done), .newline => some (.arrayEnd path depth, done)
  | (.arrayEnd path depth, done), .closeBracket => some (assigned path .empty depth done)
  | (.table path depth, done), .newline => some (.table path depth, done)
  | (.table path depth, done), .closeBrace => some (assigned path .empty depth done)
  | (.table path depth, done), lexeme => do
    some (.keyEnd (path ++ [← keyName? lexeme]) (depth + 1), done)
  | (.lineEnd 0, done), .newline => some (.statement, done)
  | (.lineEnd (depth + 1), done), .newline => some (.lineEnd (depth + 1), done)
  | (.lineEnd (depth + 1), done), .comma => some (.tableEnd depth, done)
  | (.lineEnd (depth + 1), done), .closeBrace => some (.lineEnd depth, done)
  | (.tableEnd depth, done), .newline => some (.tableEnd depth, done)
  | (.tableEnd depth, done), .closeBrace => some (.lineEnd depth, done)
  | _, _ => none

def finish? : State → Option (List Statement)
  | (.statement, done) => some done.reverse
  | (.lineEnd 0, done) => some done.reverse
  | _ => none

def ofText? (text : String) : Option (List Statement) := do
  let lexemes ← Lexeme.ofText? text
  finish? (← lexemes.foldlM step (.statement, []))

end Statement

end Settings

end CrateDocs
