import CrateDocs.Text.Hex

/-!
# Lexemes of settings files

A settings file is written in TOML. Its lexemes are line ends, marks, strings and words; blanks and
comments between them do not matter. A word is a run of letters, digits, underscores and signs, so
that keys, truth values and integers are words. Numbers with a point and dates are not read: no
setting has such a value.
-/

namespace CrateDocs

namespace Settings

inductive Lexeme
  | newline
  | equals
  | dot
  | comma
  | openBracket
  | closeBracket
  | openBrace
  | closeBrace
  | word (text : String)
  | string (text : String)
  /-- A string in triple quotes, which may run over several lines. -/
  | longString (text : String)
deriving DecidableEq

namespace Lexeme

/-- The characters with every carriage return before a line feed left out. -/
def normalizeLineEnds : List Char → List Char
  | '\r' :: '\n' :: rest => '\n' :: normalizeLineEnds rest
  | c :: rest => c :: normalizeLineEnds rest
  | [] => []

/-- Whether a character may stand in comments and in strings on one line: no control character but
the tab. -/
def isPrintable (c : Char) : Bool :=
  c == '\t' || (' ' ≤ c && c != '\x7f')

def isLongPrintable (c : Char) : Bool :=
  isPrintable c || c == '\n'

def isWordChar (c : Char) : Bool :=
  c.isAlphanum || c == '_' || c == '-' || c == '+'

def isGap (c : Char) : Bool :=
  c == ' ' || c == '\t' || c == '\n'

def scalar? (digits : List Char) : Option Char := do
  let code ← Text.ofHexDigits? digits
  if h : code.isValidChar then some (Char.ofNatAux code h) else none

def shortEscape? : Char → Option Char
  | 'b' => some '\x08'
  | 't' => some '\t'
  | 'n' => some '\n'
  | 'f' => some '\x0c'
  | 'r' => some '\r'
  | 'e' => some '\x1b'
  | '"' => some '"'
  | '\\' => some '\\'
  | _ => none

/-- What follows a backslash: the character it denotes and the characters after it. -/
def escape? : List Char → Option (Char × List Char)
  | 'x' :: a :: b :: rest => (scalar? [a, b]).map (·, rest)
  | 'u' :: a :: b :: c :: d :: rest => (scalar? [a, b, c, d]).map (·, rest)
  | 'U' :: a :: b :: c :: d :: e :: f :: g :: h :: rest =>
    (scalar? [a, b, c, d, e, f, g, h]).map (·, rest)
  | c :: rest => (shortEscape? c).map (·, rest)
  | [] => none

theorem escape?_length {cs rest : List Char} {c : Char} (h : escape? cs = some (c, rest)) :
    rest.length < cs.length := by
  unfold escape? at h
  split at h
  · simp only [Option.map_eq_some_iff, Prod.mk.injEq] at h
    obtain ⟨_, _, _, rfl⟩ := h
    simp only [List.length_cons]
    omega
  · simp only [Option.map_eq_some_iff, Prod.mk.injEq] at h
    obtain ⟨_, _, _, rfl⟩ := h
    simp only [List.length_cons]
    omega
  · simp only [Option.map_eq_some_iff, Prod.mk.injEq] at h
    obtain ⟨_, _, _, rfl⟩ := h
    simp only [List.length_cons]
    omega
  · simp only [Option.map_eq_some_iff, Prod.mk.injEq] at h
    obtain ⟨_, _, _, rfl⟩ := h
    simp
  · simp at h

/-- The string up to the closing quote, after the characters taken, which come last first. -/
def basic? (cs : List Char) (taken : List Char) : Option (String × List Char) :=
  match cs with
  | [] => none
  | c :: rest =>
    if c = '"' then some (String.ofList taken.reverse, rest)
    else if c = '\\' then
      match _h : escape? rest with
      | some (c, rest) => basic? rest (c :: taken)
      | none => none
    else if isPrintable c then basic? rest (c :: taken)
    else none
termination_by cs.length
decreasing_by
  · have := escape?_length _h
    simp only [List.length_cons]
    omega
  · simp

/-- The string up to three closing quotes. A backslash at the end of a line takes away all blanks
and line ends after it. -/
def longBasic? (cs : List Char) (taken : List Char) : Option (String × List Char) :=
  match cs with
  | [] => none
  | '"' :: '"' :: '"' :: rest => some (String.ofList taken.reverse, rest)
  | c :: rest =>
    if c = '\\' then
      let gap := rest.takeWhile isGap
      if '\n' ∈ gap then longBasic? (rest.dropWhile isGap) taken
      else
        match _h : escape? rest with
        | some (c, rest) => longBasic? rest (c :: taken)
        | none => none
    else if isLongPrintable c then longBasic? rest (c :: taken)
    else none
termination_by cs.length
decreasing_by
  · have := (List.dropWhile_sublist isGap (l := rest)).length_le
    simp only [List.length_cons]
    omega
  · have := escape?_length _h
    simp only [List.length_cons]
    omega
  · simp

/-- The string up to the closing apostrophe, in which nothing is escaped. -/
def literal? : List Char → List Char → Option (String × List Char)
  | '\x27' :: rest, taken => some (String.ofList taken.reverse, rest)
  | c :: rest, taken => if isPrintable c then literal? rest (c :: taken) else none
  | [], _ => none

def longLiteral? : List Char → List Char → Option (String × List Char)
  | '\x27' :: '\x27' :: '\x27' :: rest, taken => some (String.ofList taken.reverse, rest)
  | c :: rest, taken => if isLongPrintable c then longLiteral? rest (c :: taken) else none
  | [], _ => none

/-- A line end right after the opening of a long string does not belong to it. -/
def dropLineEnd : List Char → List Char
  | '\n' :: rest => rest
  | cs => cs

def string? : List Char → Option (Lexeme × List Char)
  | '"' :: '"' :: '"' :: rest =>
    (longBasic? (dropLineEnd rest) []).map fun (text, rest) => (.longString text, rest)
  | '"' :: rest => (basic? rest []).map fun (text, rest) => (.string text, rest)
  | '\x27' :: '\x27' :: '\x27' :: rest =>
    (longLiteral? (dropLineEnd rest) []).map fun (text, rest) => (.longString text, rest)
  | '\x27' :: rest => (literal? rest []).map fun (text, rest) => (.string text, rest)
  | _ => none

theorem basic?_length {cs taken rest : List Char} {text : String}
    (h : basic? cs taken = some (text, rest)) : rest.length < cs.length := by
  fun_induction basic? cs taken with
  | case2 => simp_all
  | case3 _ _ _ _ _ _ ih =>
    have := ih h
    have := escape?_length ‹escape? _ = some _›
    simp only [List.length_cons]
    omega
  | case5 _ _ _ _ _ _ ih =>
    have := ih h
    simp only [List.length_cons]
    omega
  | _ => simp at h

theorem longBasic?_length {cs taken rest : List Char} {text : String}
    (h : longBasic? cs taken = some (text, rest)) : rest.length < cs.length := by
  fun_induction longBasic? cs taken with
  | case2 => simp_all only [Option.some.injEq, Prod.mk.injEq, List.length_cons]; omega
  | case3 taken tail _ _ _ ih =>
    have := ih h
    have := (List.dropWhile_sublist isGap (l := tail)).length_le
    simp only [List.length_cons]
    omega
  | case4 _ _ _ _ _ _ _ _ ih =>
    have := ih h
    have := escape?_length ‹escape? _ = some _›
    simp only [List.length_cons]
    omega
  | case6 _ _ _ _ _ _ ih =>
    have := ih h
    simp only [List.length_cons]
    omega
  | _ => simp at h

theorem literal?_length {cs taken rest : List Char} {text : String}
    (h : literal? cs taken = some (text, rest)) : rest.length < cs.length := by
  fun_induction literal? cs taken with
  | case1 => simp_all
  | case2 _ _ _ _ _ ih =>
    have := ih h
    simp only [List.length_cons]
    omega
  | _ => simp at h

theorem longLiteral?_length {cs taken rest : List Char} {text : String}
    (h : longLiteral? cs taken = some (text, rest)) : rest.length < cs.length := by
  fun_induction longLiteral? cs taken with
  | case1 => simp_all only [Option.some.injEq, Prod.mk.injEq, List.length_cons]; omega
  | case2 _ _ _ _ _ ih =>
    have := ih h
    simp only [List.length_cons]
    omega
  | _ => simp at h

theorem dropLineEnd_length (cs : List Char) : (dropLineEnd cs).length ≤ cs.length := by
  unfold dropLineEnd
  split <;> simp

theorem string?_length {cs rest : List Char} {lexeme : Lexeme}
    (h : string? cs = some (lexeme, rest)) : rest.length < cs.length := by
  unfold string? at h
  split at h
  · rename_i tail
    simp only [Option.map_eq_some_iff, Prod.mk.injEq] at h
    obtain ⟨_, hscan, _, rfl⟩ := h
    have := longBasic?_length hscan
    have := dropLineEnd_length tail
    simp only [List.length_cons]
    omega
  · simp only [Option.map_eq_some_iff, Prod.mk.injEq] at h
    obtain ⟨_, hscan, _, rfl⟩ := h
    have := basic?_length hscan
    simp only [List.length_cons]
    omega
  · rename_i tail
    simp only [Option.map_eq_some_iff, Prod.mk.injEq] at h
    obtain ⟨_, hscan, _, rfl⟩ := h
    have := longLiteral?_length hscan
    have := dropLineEnd_length tail
    simp only [List.length_cons]
    omega
  · simp only [Option.map_eq_some_iff, Prod.mk.injEq] at h
    obtain ⟨_, hscan, _, rfl⟩ := h
    have := literal?_length hscan
    simp only [List.length_cons]
    omega
  · simp at h

def ofMark? : Char → Option Lexeme
  | '\n' => some .newline
  | '=' => some .equals
  | '.' => some .dot
  | ',' => some .comma
  | '[' => some .openBracket
  | ']' => some .closeBracket
  | '\x7b' => some .openBrace
  | '\x7d' => some .closeBrace
  | _ => none

/-- The lexemes of a text after those already taken, which are given last first. -/
def scan? (cs : List Char) (taken : List Lexeme) : Option (List Lexeme) :=
  match cs with
  | [] => some taken.reverse
  | c :: rest =>
    if c = ' ' ∨ c = '\t' then scan? rest taken
    else if c = '#' then
      if (rest.takeWhile (· != '\n')).all isPrintable then
        scan? (rest.dropWhile (· != '\n')) taken
      else none
    else
      match ofMark? c with
      | some mark => scan? rest (mark :: taken)
      | none =>
        if isWordChar c then
          let word := String.ofList (c :: rest.takeWhile isWordChar)
          scan? (rest.dropWhile isWordChar) (.word word :: taken)
        else
          match _h : string? (c :: rest) with
          | some (text, rest) => scan? rest (text :: taken)
          | none => none
termination_by cs.length
decreasing_by
  · simp
  · have := (List.dropWhile_sublist (· != '\n') (l := rest)).length_le
    simp only [List.length_cons]
    omega
  · simp
  · have := (List.dropWhile_sublist isWordChar (l := rest)).length_le
    simp only [List.length_cons]
    omega
  · exact string?_length _h

/-- The lexemes of a settings file, which may begin with a byte order mark. -/
def ofText? (text : String) : Option (List Lexeme) :=
  let cs := normalizeLineEnds text.toList
  match cs with
  | '\ufeff' :: rest => scan? rest []
  | _ => scan? cs []

end Lexeme

end Settings

end CrateDocs
