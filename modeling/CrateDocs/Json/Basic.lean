import CrateDocs.Binary64

/-!
# JSON values

A number is an integer, or else a finite binary64 number, which is never taken for an integer. An
object is a list of members, of which the first with a key counts. `Part` is a smaller value found
inside another one: readers that descend into parts end.
-/

namespace CrateDocs

/-- A JSON number. Anything written with a point or an exponent is not an integer, nor is `-0`. -/
inductive Number
  | integer (value : Int)
  /-- A binary64 number, by its sign and its magnitude. -/
  | decimal (isNegative : Bool) (magnitude : Binary64.Magnitude)
deriving DecidableEq

inductive Json
  | null
  | bool (value : Bool)
  | num (value : Number)
  | str (value : String)
  | arr (items : List Json)
  | obj (members : List (String × Json))

namespace Json

mutual

def decEq : (a b : Json) → Decidable (a = b)
  | .null, .null => isTrue rfl
  | .bool a, .bool b => decidable_of_iff (a = b) (by simp)
  | .num a, .num b => decidable_of_iff (a = b) (by simp)
  | .str a, .str b => decidable_of_iff (a = b) (by simp)
  | .arr a, .arr b =>
    match decEqItems a b with
    | isTrue h => isTrue (by rw [h])
    | isFalse h => isFalse (by simp [h])
  | .obj a, .obj b =>
    match decEqMembers a b with
    | isTrue h => isTrue (by rw [h])
    | isFalse h => isFalse (by simp [h])
  | .null, .bool _ | .null, .num _ | .null, .str _ | .null, .arr _ | .null, .obj _
  | .bool _, .null | .bool _, .num _ | .bool _, .str _ | .bool _, .arr _ | .bool _, .obj _
  | .num _, .null | .num _, .bool _ | .num _, .str _ | .num _, .arr _ | .num _, .obj _
  | .str _, .null | .str _, .bool _ | .str _, .num _ | .str _, .arr _ | .str _, .obj _
  | .arr _, .null | .arr _, .bool _ | .arr _, .num _ | .arr _, .str _ | .arr _, .obj _
  | .obj _, .null | .obj _, .bool _ | .obj _, .num _ | .obj _, .str _ | .obj _, .arr _ =>
    isFalse nofun

def decEqItems : (as bs : List Json) → Decidable (as = bs)
  | [], [] => isTrue rfl
  | [], _ :: _ | _ :: _, [] => isFalse nofun
  | a :: as, b :: bs =>
    match decEq a b, decEqItems as bs with
    | isTrue h, isTrue hs => isTrue (by rw [h, hs])
    | isFalse h, _ => isFalse (by simp [h])
    | _, isFalse h => isFalse (by simp [h])

def decEqMembers : (as bs : List (String × Json)) → Decidable (as = bs)
  | [], [] => isTrue rfl
  | [], _ :: _ | _ :: _, [] => isFalse nofun
  | (k, a) :: as, (l, b) :: bs =>
    match decEq a b, decEqMembers as bs with
    | isTrue h, isTrue hs => decidable_of_iff (k = l) (by simp [h, hs])
    | isFalse h, _ => isFalse (by simp [h])
    | _, isFalse h => isFalse (by simp [h])

end

instance : DecidableEq Json := decEq

inductive Kind
  | null
  | boolean
  | number
  | string
  | array
  | object
deriving DecidableEq

def Kind.describe : Kind → String
  | .null => "null"
  | .boolean => "a boolean"
  | .number => "a number"
  | .string => "a string"
  | .array => "an array"
  | .object => "an object"

def kind : Json → Kind
  | .null => .null
  | .bool _ => .boolean
  | .num _ => .number
  | .str _ => .string
  | .arr _ => .array
  | .obj _ => .object

/-- The member of the given name in a list of members; a null counts as absent. -/
def member? (members : List (String × Json)) (key : String) : Option Json :=
  match members.lookup key with
  | some .null => none
  | found => found

/-- A value that is smaller than the given one, such as a value found inside it. -/
def Part (v : Json) : Type := { w : Json // sizeOf w < sizeOf v }

/-- The items of an array, each as a part of it. -/
def itemParts (items : List Json) : List (arr items).Part :=
  items.attach.map fun w => ⟨w.1, by
    have := List.sizeOf_lt_of_mem w.2
    simp only [arr.sizeOf_spec]
    omega⟩

def memberParts (members : List (String × Json)) : List (String × (obj members).Part) :=
  members.attach.map fun m => (m.1.1, ⟨m.1.2, by
    have hm := List.sizeOf_lt_of_mem m.2
    have hp : sizeOf m.1 = 1 + sizeOf m.1.1 + sizeOf m.1.2 := rfl
    simp only [obj.sizeOf_spec]
    omega⟩)

end Json

end CrateDocs
