import CrateDocs.Json.Canonical
import CrateDocs.Json.Lexeme

/-!
# Reading JSON text

A reader takes the lexemes of a text one by one. It remembers the arrays and objects that are
still open, innermost first, and what may come next. A text is accepted when its lexemes end just
after a value that nothing encloses. At most `depthLimit` arrays and objects may be open at once.
-/

namespace CrateDocs

/-- How many arrays and objects of a text may enclose each other. -/
def Json.depthLimit : Nat := 127

namespace Reader

/-- An array or object that is still open, with what it holds so far, last first. -/
inductive Frame
  | array (items : List Json)
  | object (members : List (String × Json)) (key : String)

/-- What the lexemes so far call for. -/
inductive State
  | value (frames : List Frame)
  /-- The first item of an array, or its end. -/
  | firstItem (frames : List Frame)
  | firstKey (frames : List Frame)
  | key (members : List (String × Json)) (frames : List Frame)
  | colon (members : List (String × Json)) (key : String) (frames : List Frame)
  /-- Whatever may come after a finished value. -/
  | after (frames : List Frame) (value : Json)

def opened (limit : Nat) (next : List Frame → State) (frames : List Frame) : Option State :=
  if frames.length < limit then some (next frames) else none

def startValue (limit : Nat) (frames : List Frame) : Lexeme → Option State
  | .openArray => opened limit .firstItem frames
  | .openObject => opened limit .firstKey frames
  | .null => some (.after frames .null)
  | .bool b => some (.after frames (.bool b))
  | .number n => some (.after frames (.num n))
  | .string s => some (.after frames (.str s))
  | .closeArray | .closeObject | .comma | .colon => none

/-- The object with the given members, last first; the last of those with one key counts. -/
def closeObject (members : List (String × Json)) : Json :=
  .obj (Json.sortMembers members.reverse)

/-- The state after one more lexeme; none if it may not stand there. -/
def step (limit : Nat) : State → Lexeme → Option State
  | .value frames, lexeme => startValue limit frames lexeme
  | .firstItem frames, .closeArray => some (.after frames (.arr []))
  | .firstItem frames, lexeme => startValue limit (.array [] :: frames) lexeme
  | .firstKey frames, .closeObject => some (.after frames (.obj []))
  | .firstKey frames, .string key => some (.colon [] key frames)
  | .key members frames, .string key => some (.colon members key frames)
  | .colon members key frames, .colon => some (.value (.object members key :: frames))
  | .after (.array items :: frames) value, .comma =>
    some (.value (.array (value :: items) :: frames))
  | .after (.array items :: frames) value, .closeArray =>
    some (.after frames (.arr (value :: items).reverse))
  | .after (.object members key :: frames) value, .comma =>
    some (.key ((key, value) :: members) frames)
  | .after (.object members key :: frames) value, .closeObject =>
    some (.after frames (closeObject ((key, value) :: members)))
  | _, _ => none

def result? : State → Option Json
  | .after [] value => some value
  | _ => none

end Reader

namespace Json

def ofLexemes? (limit : Nat) (lexemes : List Lexeme) : Option Json := do
  let final ← lexemes.foldlM (Reader.step limit) (.value [])
  Reader.result? final

/-- The value of a text in which at most `limit` arrays and objects enclose each other. -/
def ofTextWithin? (limit : Nat) (text : String) : Option Json := do
  ofLexemes? limit (← Lexeme.ofText? text)

def ofText? (text : String) : Option Json :=
  ofTextWithin? depthLimit text

def ofBytes? (bytes : ByteArray) : Option Json := do
  ofText? (← String.fromUTF8? bytes)

end Json

end CrateDocs
