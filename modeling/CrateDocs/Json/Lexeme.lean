import CrateDocs.Json.Numeral
import CrateDocs.Text.Hex

/-!
# Lexemes

A JSON text is a sequence of lexemes with blanks between them. A lexeme is a punctuation mark, a
quoted string, or a word: a run of characters up to the next blank, mark or quote. Words are the
three literal names and the numbers.
-/

namespace CrateDocs

inductive Lexeme
  | openArray
  | closeArray
  | openObject
  | closeObject
  | comma
  | colon
  | null
  | bool (value : Bool)
  | number (value : Number)
  | string (value : String)
deriving DecidableEq

/-- A unit of a quoted string: a character, or the value of a `\u` escape. -/
inductive StringUnit
  | char (c : Char)
  | escape (code : Nat)
deriving DecidableEq

namespace StringUnit

def shortEscape? : Char → Option Char
  | '"' => some '"'
  | '\\' => some '\\'
  | '/' => some '/'
  | 'b' => some '\x08'
  | 'f' => some '\x0c'
  | 'n' => some '\n'
  | 'r' => some '\r'
  | 't' => some '\t'
  | _ => none

/-- The units up to the closing quote, last first and before those already taken, and the
characters after the quote. A control character must be escaped. -/
def scan? : List Char → List StringUnit → Option (List StringUnit × List Char)
  | '"' :: rest, taken => some (taken, rest)
  | '\\' :: 'u' :: a :: b :: c :: d :: rest, taken =>
    match Text.ofHexDigits? [a, b, c, d] with
    | some code => scan? rest (.escape code :: taken)
    | none => none
  | '\\' :: c :: rest, taken =>
    match shortEscape? c with
    | some c => scan? rest (.char c :: taken)
    | none => none
  | c :: rest, taken =>
    if c < ' ' ∨ c = '\\' then none else scan? rest (.char c :: taken)
  | [], _ => none

/-- The characters of a string whose units are given last first, before those already decoded. An
escape of a high surrogate and one of a low surrogate after it denote one character; otherwise
surrogates denote nothing. -/
def join? : List StringUnit → List Char → Option (List Char)
  | [], done => some done
  | .char c :: rest, done => join? rest (c :: done)
  | .escape low :: .escape high :: rest, done =>
    if 0xDC00 ≤ low ∧ low < 0xE000 then
      if 0xD800 ≤ high ∧ high < 0xDC00 then
        join? rest (Char.ofNat (0x10000 + (high - 0xD800) * 0x400 + (low - 0xDC00)) :: done)
      else none
    else if 0xD800 ≤ low ∧ low < 0xDC00 then none
    else join? (.escape high :: rest) (Char.ofNat low :: done)
  | .escape code :: rest, done =>
    if 0xD800 ≤ code ∧ code < 0xE000 then none else join? rest (Char.ofNat code :: done)

theorem scan?_length {cs rest : List Char} {taken units : List StringUnit}
    (h : scan? cs taken = some (units, rest)) : rest.length < cs.length := by
  fun_induction scan? cs taken with
  | case1 => simp_all
  | case2 _ _ _ _ _ _ _ _ ih => have := ih h; simp only [List.length_cons]; omega
  | case4 _ _ _ _ _ _ ih => have := ih h; simp only [List.length_cons]; omega
  | case7 _ _ _ _ _ _ _ ih => have := ih h; simp only [List.length_cons]; omega
  | _ => simp at h

end StringUnit

namespace Lexeme

/-- The four characters that may stand between lexemes. -/
def isBlank (c : Char) : Bool :=
  c == ' ' || c == '\t' || c == '\n' || c == '\r'

def ofMark? : Char → Option Lexeme
  | '[' => some .openArray
  | ']' => some .closeArray
  | '\x7b' => some .openObject
  | '\x7d' => some .closeObject
  | ',' => some .comma
  | ':' => some .colon
  | _ => none

def isWordChar (c : Char) : Bool :=
  !isBlank c && (ofMark? c).isNone && c != '"'

def ofWord? (word : List Char) : Option Lexeme :=
  if word = ['n', 'u', 'l', 'l'] then some .null
  else if word = ['t', 'r', 'u', 'e'] then some (.bool true)
  else if word = ['f', 'a', 'l', 's', 'e'] then some (.bool false)
  else (Number.ofChars? word).map .number

/-- The lexemes of a text after those already taken, which are given last first. -/
def scan? (cs : List Char) (taken : List Lexeme) : Option (List Lexeme) :=
  match cs with
  | [] => some taken.reverse
  | c :: rest =>
    if isBlank c then scan? rest taken
    else if c = '"' then
      match _h : StringUnit.scan? rest [] with
      | some (units, after) =>
        match StringUnit.join? units [] with
        | some text => scan? after (.string (String.ofList text) :: taken)
        | none => none
      | none => none
    else
      match ofMark? c with
      | some mark => scan? rest (mark :: taken)
      | none =>
        match ofWord? (c :: rest.takeWhile isWordChar) with
        | some word => scan? (rest.dropWhile isWordChar) (word :: taken)
        | none => none
termination_by cs.length
decreasing_by
  · simp
  · have := StringUnit.scan?_length _h
    simp only [List.length_cons]
    omega
  · simp
  · have := (List.dropWhile_sublist isWordChar (l := rest)).length_le
    simp only [List.length_cons]
    omega

def ofText? (text : String) : Option (List Lexeme) :=
  scan? text.toList []

end Lexeme

end CrateDocs
