import CrateDocs.Json.Lexeme
import CrateDocs.Json.Printer
import CrateDocs.Proofs.Json.Integers
import Mathlib.Data.List.Induction

/-!
# The lexemes of a written value

A written string is read back unit by unit, and a written word up to the character after it. So the
text of an integral value has the lexemes that the value calls for.
-/

namespace CrateDocs

/-- The code of a control character is written with two hexadecimal digits. -/
theorem Text.ofHexDigits?_hexDigit {n : Nat} (h : n < 256) :
    ofHexDigits? ['0', '0', hexDigit (n / 16), hexDigit (n % 16)] = some n := by
  have hzero : hexDigit? '0' = some 0 := rfl
  have hhigh := hexDigit?_hexDigit (n := n / 16) (by omega)
  have hlow := hexDigit?_hexDigit (n := n % 16) (by omega)
  simp only [ofHexDigits?, List.mapM_cons, List.mapM_nil, hzero, hhigh, hlow, Option.bind_eq_bind,
    Option.bind_some, Option.pure_def, List.foldl_cons, List.foldl_nil]
  congr 1
  omega

namespace StringUnit

variable {c : Char} {rest : List Char} {taken units : List StringUnit} {done : List Char}

/-- The unit as which a written character is read. A control character is escaped by its code if it
has no escape of its own. -/
def ofWritten (c : Char) : StringUnit :=
  if c < ' ' ∧ c ∉ ['\x08', '\t', '\n', '\x0c', '\r'] then .escape c.toNat else .char c

theorem toNat_lt_of_lt_blank (h : c < ' ') : c.toNat < 32 :=
  h

theorem scan?_escapeChar :
    scan? ((Json.escapeChar c).toList ++ rest) taken = scan? rest (ofWritten c :: taken) := by
  unfold Json.escapeChar
  -- The quote, the backslash and five control characters have short escapes.
  iterate 7
    split
    · subst_vars
      rfl
  rename_i hquote hbackslash hbackspace htab hnewline hfeed hreturn
  split
  · rename_i hcontrol
    have hlt := toNat_lt_of_lt_blank hcontrol
    have hcode := Text.ofHexDigits?_hexDigit (n := c.toNat) (by omega)
    have hunit : ofWritten c = .escape c.toNat :=
      if_pos ⟨hcontrol, by simp [hbackspace, htab, hnewline, hfeed, hreturn]⟩
    rw [String.toList_append, String.toList_ofList, String.toList_ofList, hunit]
    change scan? ('\\' :: 'u' :: '0' :: '0' :: Text.hexDigit (c.toNat / 16) ::
      Text.hexDigit (c.toNat % 16) :: rest) taken = _
    rw [scan?, hcode]
  · rename_i hcontrol
    have hunit : ofWritten c = .char c := if_neg fun h => hcontrol h.1
    have hplain : ¬ (c < ' ' ∨ c = '\\') := by simp [hcontrol, hbackslash]
    rw [String.toList_singleton, List.singleton_append, hunit, scan?, if_neg hplain]
    all_goals simp [hquote, hbackslash]

/-- The characters of a string up to its end are read unit by unit. -/
theorem scan?_written (cs : List Char) :
    scan? (cs.flatMap (fun c => (Json.escapeChar c).toList) ++ '"' :: rest) taken =
      some ((cs.map ofWritten).reverse ++ taken, rest) := by
  induction cs generalizing taken with
  | nil => rfl
  | cons c cs ih =>
    rw [List.flatMap_cons, List.append_assoc, scan?_escapeChar, ih, List.map_cons,
      List.reverse_cons, List.append_assoc, List.singleton_append]

theorem join?_ofWritten : join? (ofWritten c :: units) done = join? units (c :: done) := by
  unfold ofWritten
  split
  · rename_i h
    -- The code of a control character is no surrogate, so that it does not go with another unit.
    have hcode := toNat_lt_of_lt_blank h.1
    have hlow : ¬ (0xDC00 ≤ c.toNat ∧ c.toNat < 0xE000) := by omega
    have hhigh : ¬ (0xD800 ≤ c.toNat ∧ c.toNat < 0xDC00) := by omega
    have hsurrogate : ¬ (0xD800 ≤ c.toNat ∧ c.toNat < 0xE000) := by omega
    rcases units with _ | ⟨_ | code, units⟩
    · simp [join?, hsurrogate]
    · simp [join?, hsurrogate]
    · rw [join?, if_neg hlow, if_neg hhigh, Char.ofNat_toNat]
  · rw [join?]

/-- The units of written characters stand for these characters. -/
theorem join?_written (cs : List Char) :
    join? (cs.map ofWritten).reverse done = some (cs ++ done) := by
  induction cs using List.reverseRecOn generalizing done with
  | nil => rfl
  | append_singleton cs c ih =>
    rw [List.map_append, List.reverse_append, List.map_singleton, List.reverse_singleton,
      List.singleton_append, join?_ofWritten, ih, List.append_assoc, List.singleton_append]

end StringUnit

theorem Json.toList_quote (s : String) :
    (quote s).toList = '"' :: (s.toList.flatMap (fun c => (escapeChar c).toList) ++ ['"']) := by
  have hfoldl (cs : List Char) (start : String) :
      (cs.foldl (fun done c => done ++ escapeChar c) start).toList =
        start.toList ++ cs.flatMap fun c => (escapeChar c).toList := by
    induction cs generalizing start with
    | nil => exact (List.append_nil _).symm
    | cons c cs ih =>
      rw [List.foldl_cons, ih, String.toList_append, List.append_assoc, List.flatMap_cons]
  rw [quote, String.toList_append, hfoldl]
  rfl

namespace Lexeme

variable {rest : List Char} {taken : List Lexeme} {lexeme : Lexeme}

theorem scan?_quote (s : String) :
    scan? ((Json.quote s).toList ++ rest) taken = scan? rest (.string s :: taken) := by
  have hunits : StringUnit.scan?
      (s.toList.flatMap (fun c => (Json.escapeChar c).toList) ++ '"' :: rest) [] =
        some ((s.toList.map StringUnit.ofWritten).reverse ++ [], rest) :=
    StringUnit.scan?_written s.toList
  have hchars : StringUnit.join? (s.toList.map StringUnit.ofWritten).reverse [] =
      some (s.toList ++ []) :=
    StringUnit.join?_written s.toList
  rw [List.append_nil] at hunits hchars
  rw [Json.toList_quote, List.cons_append, List.append_assoc, List.singleton_append, scan?,
    if_neg (by decide), if_pos rfl]
  split
  · rename_i units after heq
    obtain ⟨rfl, rfl⟩ := Prod.mk.inj (Option.some.inj (hunits.symm.trans heq))
    simp only [hchars, String.ofList_toList]
  · rename_i heq
    cases hunits.symm.trans heq

theorem scan?_mark {c : Char} (h : ofMark? c = some lexeme) :
    scan? (c :: rest) taken = scan? rest (lexeme :: taken) := by
  have hblank : isBlank c = false ∧ c ≠ '"' := by
    unfold ofMark? at h
    split at h
    case h_7 => cases h
    all_goals decide
  rw [scan?, hblank.1, if_neg Bool.false_ne_true, if_neg hblank.2, h]

/-- Whether a word ends before the given characters. -/
def EndsWord (rest : List Char) : Prop :=
  ∀ c ∈ rest.head?, isWordChar c = false

theorem endsWord_cons {c : Char} : EndsWord (c :: rest) ↔ isWordChar c = false := by
  simp [EndsWord]

theorem endsWord_nil : EndsWord [] :=
  nofun

theorem EndsWord.takeWhile_eq (h : EndsWord rest) : rest.takeWhile isWordChar = [] := by
  cases rest with
  | nil => rfl
  | cons c cs => rw [List.takeWhile_cons, endsWord_cons.1 h]; rfl

theorem EndsWord.dropWhile_eq (h : EndsWord rest) : rest.dropWhile isWordChar = rest := by
  cases rest with
  | nil => rfl
  | cons c cs => rw [List.dropWhile_cons, endsWord_cons.1 h]; rfl

/-- A word is read up to where it ends. -/
theorem scan?_word {word : List Char} (hword : ofWord? word = some lexeme)
    (hchars : word.all isWordChar = true) (hrest : EndsWord rest) :
    scan? (word ++ rest) taken = scan? rest (lexeme :: taken) := by
  cases word with
  | nil =>
    have hempty : ofWord? [] = none := rfl
    cases hempty.symm.trans hword
  | cons c cs =>
    obtain ⟨hc, hcs⟩ := List.forall_mem_cons.1 (List.all_eq_true.1 hchars)
    simp only [isWordChar, Bool.and_eq_true, Bool.not_eq_true', Option.isNone_iff_eq_none,
      bne_iff_ne] at hc
    obtain ⟨⟨hblank, hmark⟩, hquote⟩ := hc
    have htake : (cs ++ rest).takeWhile isWordChar = cs := by
      rw [List.takeWhile_append_of_pos hcs, hrest.takeWhile_eq, List.append_nil]
    have hdrop : (cs ++ rest).dropWhile isWordChar = rest := by
      rw [List.dropWhile_append_of_pos hcs, hrest.dropWhile_eq]
    rw [List.cons_append, scan?, hblank, if_neg Bool.false_ne_true, if_neg hquote, hmark]
    simp only [htake, hdrop, hword]

theorem isWordChar_of_isDigit {c : Char} (h : c.isDigit) : isWordChar c = true := by
  obtain ⟨hlow, hhigh⟩ := Unsigned.toNat_of_isDigit h
  have hne {d : Char} (hd : d.toNat < 48 ∨ 57 < d.toNat) : c ≠ d := by
    rintro rfl
    omega
  have hmark : ofMark? c = none := by
    unfold ofMark?
    split
    case h_7 => rfl
    all_goals exact absurd rfl (hne (by decide))
  simp only [isWordChar, isBlank, hmark, Option.isNone_none, Bool.and_true, Bool.and_eq_true,
    Bool.not_eq_true', Bool.or_eq_false_iff, beq_eq_false_iff_ne, bne_iff_ne]
  exact ⟨⟨⟨⟨hne (by decide), hne (by decide)⟩, hne (by decide)⟩, hne (by decide)⟩,
    hne (by decide)⟩

/-- The characters of an integer are digits, but perhaps for a sign. -/
theorem isWordChar_of_mem_toString {value : Int} {c : Char} (h : c ∈ (toString value).toList) :
    isWordChar c = true := by
  cases value with
  | ofNat n =>
    rw [Numeral.toList_toString_ofNat] at h
    exact isWordChar_of_isDigit (Numeral.isDigit_of_mem_toDigits h)
  | negSucc n =>
    rw [Numeral.toList_toString_negSucc] at h
    rcases List.mem_cons.1 h with rfl | h
    · rfl
    · exact isWordChar_of_isDigit (Numeral.isDigit_of_mem_toDigits h)

/-- The characters of an integer are a word that denotes it. -/
theorem ofWord?_toString {value : Int} (h : (Number.integer value).IsInteger64) :
    ofWord? (toString value).toList = some (.number (.integer value)) := by
  have hnumber := Number.ofChars?_toString h
  have hne {word : List Char} (hword : Number.ofChars? word = none) :
      (toString value).toList ≠ word := by
    rintro rfl
    cases hnumber.symm.trans hword
  rw [ofWord?, if_neg (hne rfl), if_neg (hne rfl), if_neg (hne rfl), hnumber, Option.map_some]

end Lexeme

namespace Json

open Lexeme

mutual

/-- The lexemes that the text of a value consists of. -/
def lexemes : Json → List Lexeme
  | .null => [.null]
  | .bool b => [.bool b]
  | .num n => [.number n]
  | .str s => [.string s]
  | .arr [] => [.openArray, .closeArray]
  | .arr (item :: items) =>
    .openArray :: (item.lexemes ++ (lexemesOfItems items ++ [.closeArray]))
  | .obj [] => [.openObject, .closeObject]
  | .obj ((key, value) :: members) =>
    .openObject :: .string key :: .colon ::
      (value.lexemes ++ (lexemesOfMembers members ++ [.closeObject]))

/-- The lexemes of further items, a comma before each. -/
def lexemesOfItems : List Json → List Lexeme
  | [] => []
  | item :: items => .comma :: (item.lexemes ++ lexemesOfItems items)

def lexemesOfMembers : List (String × Json) → List Lexeme
  | [] => []
  | (key, value) :: members =>
    .comma :: .string key :: .colon :: (value.lexemes ++ lexemesOfMembers members)

end

/-- Behind an item of an array stands a mark, which ends a word. -/
theorem endsWord_renderItems (items : List Json) (rest : List Char) :
    EndsWord ((renderItems items).toList ++ ']' :: rest) := by
  cases items with
  | nil => exact endsWord_cons.2 rfl
  | cons item items =>
    simp only [renderItems, String.toList_append]
    exact endsWord_cons.2 rfl

theorem endsWord_renderMembers (members : List (String × Json)) (rest : List Char) :
    EndsWord ((renderMembers members).toList ++ '\x7d' :: rest) := by
  rcases members with _ | ⟨⟨key, v⟩, members⟩
  · exact endsWord_cons.2 rfl
  · simp only [renderMembers, String.toList_append]
    exact endsWord_cons.2 rfl

mutual

/-- The text of an integral value is scanned into the lexemes of the value. -/
theorem scan?_render : {v : Json} → v.Integral → {rest : List Char} → EndsWord rest →
    (taken : List Lexeme) →
      scan? (v.render.toList ++ rest) taken = scan? rest (v.lexemes.reverse ++ taken)
  | .null, _, _, hrest, _ => scan?_word rfl rfl hrest
  | .bool true, _, _, hrest, _ => scan?_word rfl rfl hrest
  | .bool false, _, _, hrest, _ => scan?_word rfl rfl hrest
  | .num (.integer _), h, _, hrest, _ =>
    scan?_word (ofWord?_toString h) (List.all_eq_true.2 fun _ => isWordChar_of_mem_toString) hrest
  | .str s, _, _, _, _ => scan?_quote s
  | .arr [], _, rest, _, taken => by
    change scan? ('[' :: ']' :: rest) taken = _
    rw [scan?_mark rfl, scan?_mark rfl]
    rfl
  | .arr (item :: items), ⟨h, hs⟩, rest, _, taken => by
    simp only [render, String.toList_append, List.append_assoc]
    change scan? ('[' :: (item.render.toList ++ ((renderItems items).toList ++ ']' :: rest))) taken
      = _
    rw [scan?_mark rfl, scan?_render h (endsWord_renderItems items rest), scan?_renderItems hs,
      scan?_mark rfl]
    simp [lexemes]
  | .obj [], _, rest, _, taken => by
    change scan? ('\x7b' :: '\x7d' :: rest) taken = _
    rw [scan?_mark rfl, scan?_mark rfl]
    rfl
  | .obj ((key, v) :: members), ⟨h, hs⟩, rest, _, taken => by
    simp only [render, String.toList_append, List.append_assoc]
    change scan? ('\x7b' :: ((quote key).toList ++ ':' :: (v.render.toList ++
      ((renderMembers members).toList ++ '\x7d' :: rest)))) taken = _
    rw [scan?_mark rfl, scan?_quote, scan?_mark rfl,
      scan?_render h (endsWord_renderMembers members rest), scan?_renderMembers hs,
      scan?_mark rfl]
    simp [lexemes]

theorem scan?_renderItems : {items : List Json} → IntegralItems items → {rest : List Char} →
    {taken : List Lexeme} →
      scan? ((renderItems items).toList ++ ']' :: rest) taken =
        scan? (']' :: rest) ((lexemesOfItems items).reverse ++ taken)
  | [], _, _, _ => rfl
  | item :: items, ⟨h, hs⟩, rest, taken => by
    simp only [renderItems, String.toList_append, List.append_assoc]
    change scan? (',' :: (item.render.toList ++ ((renderItems items).toList ++ ']' :: rest))) taken
      = _
    rw [scan?_mark rfl, scan?_render h (endsWord_renderItems items rest), scan?_renderItems hs]
    simp [lexemesOfItems]

theorem scan?_renderMembers : {members : List (String × Json)} → IntegralMembers members →
    {rest : List Char} → {taken : List Lexeme} →
      scan? ((renderMembers members).toList ++ '\x7d' :: rest) taken =
        scan? ('\x7d' :: rest) ((lexemesOfMembers members).reverse ++ taken)
  | [], _, _, _ => rfl
  | (key, v) :: members, ⟨h, hs⟩, rest, taken => by
    simp only [renderMembers, String.toList_append, List.append_assoc]
    change scan? (',' :: ((quote key).toList ++ ':' :: (v.render.toList ++
      ((renderMembers members).toList ++ '\x7d' :: rest)))) taken = _
    rw [scan?_mark rfl, scan?_quote, scan?_mark rfl,
      scan?_render h (endsWord_renderMembers members rest), scan?_renderMembers hs]
    simp [lexemesOfMembers]

end

end Json

theorem Lexeme.ofText?_render {v : Json} (h : v.Integral) : ofText? v.render = some v.lexemes := by
  have hscan := Json.scan?_render h endsWord_nil []
  rw [List.append_nil, List.append_nil] at hscan
  rw [ofText?, hscan, scan?, List.reverse_reverse]

end CrateDocs
