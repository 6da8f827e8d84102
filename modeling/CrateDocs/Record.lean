import CrateDocs.Fault
import CrateDocs.ItemId

/-!
# Records

A record is an object that is read by the names of its fields. A field that is null counts as
absent, and fields that nobody asks for do not matter. Every reader here hands out parts of the
value that it reads, so that a reader of nested values ends, and reports faults relative to that
value.
-/

namespace CrateDocs

/-- What a reader finds out about a value. -/
abbrev Reading (α : Type) : Type := Except Fault α

def Reading.within {α : Type} (segment : Segment) (reading : Reading α) : Reading α :=
  reading.mapError (Fault.within segment)

namespace Json

instance {v : Json} : CoeOut v.Part Json := ⟨Subtype.val⟩

def Part.widen {v : Json} (w : v.Part) (x : w.val.Part) : v.Part :=
  ⟨x.val, Nat.lt_trans x.property w.property⟩

def asString : Json → Reading String
  | .str s => .ok s
  | v => .error (.mismatch .string v)

def asBool : Json → Reading Bool
  | .bool b => .ok b
  | v => .error (.mismatch .boolean v)

def asId (v : Json) : Reading ItemId :=
  v.asString.map ItemId.mk

/-- A value that must be an integer between zero and a bound; any other is a mismatch. -/
def asBelow (bound : Nat) (shape : Shape) : Json → Reading Nat
  | .num (.integer n) =>
    if 0 ≤ n ∧ n < bound then .ok n.toNat else .error ⟨[], .mismatch shape .number⟩
  | v => .error (.mismatch shape v)

def asUInt32 (v : Json) : Reading UInt32 :=
  (v.asBelow UInt32.size .unsigned32).map UInt32.ofNat

def asUInt64 (v : Json) : Reading UInt64 :=
  (v.asBelow UInt64.size .unsigned).map UInt64.ofNat

/-- A string that must name one of the variants of a choice. -/
def asVariant {α : Type} (choice : Choice) (ofName? : String → Option α) (v : Json) :
    Reading α := do
  let name ← v.asString
  match ofName? name with
  | some variant => .ok variant
  | none => .error ⟨[], .unknownVariant choice name⟩

/-- The items of a value that must be an array, each read by `read`. -/
def readItems {α : Type} (v : Json) (read : v.Part → Reading α) : Reading (List α) :=
  match v with
  | .arr items => (itemParts items).zipIdx.mapM fun (item, i) => (read item).within (.index i)
  | other => .error (.mismatch .array other)

def readPair {α β : Type} (v : Json) (first : v.Part → Reading α) (second : v.Part → Reading β) :
    Reading (α × β) :=
  match v with
  | .arr items =>
    match itemParts items with
    | [a, b] => do
      let x ← (first a).within (.index 0)
      let y ← (second b).within (.index 1)
      return (x, y)
    | _ => .error ⟨[], .mismatch .pair .array⟩
  | other => .error (.mismatch .array other)

def readEntries {α : Type} (v : Json) (read : String → v.Part → Reading α) : Reading (List α) :=
  match v with
  | .obj members =>
    (memberParts members).mapM fun (key, value) => (read key value).within (.key key)
  | other => .error (.mismatch .object other)

end Json

/-- An object, to be read by the names of its fields. -/
structure Record (v : Json) where
  members : List (String × Json)
  eq_obj : v = .obj members

def Json.asRecord (v : Json) : Reading (Record v) :=
  match v with
  | .obj members => .ok ⟨members, rfl⟩
  | other => .error (.mismatch .object other)

namespace Json

theorem mem_of_member? {members : List (String × Json)} {key : String} {w : Json}
    (h : member? members key = some w) : (key, w) ∈ members := by
  unfold member? at h
  split at h
  · simp at h
  · obtain ⟨before, after, rfl, _⟩ := List.lookup_eq_some_iff.1 h
    simp

end Json

namespace Record

variable {v : Json} {α : Type}

/-- The value of a field, if it is there and not null. -/
def get? (r : Record v) (key : String) : Option v.Part :=
  match h : Json.member? r.members key with
  | some w => some ⟨w, by
      have hm := List.sizeOf_lt_of_mem (Json.mem_of_member? h)
      simp only [r.eq_obj, Json.obj.sizeOf_spec]
      simp only [Prod.mk.sizeOf_spec] at hm
      omega⟩
  | none => none

/-- The value of a field that must be there. -/
def required (r : Record v) (key : String) : Reading v.Part :=
  match r.get? key with
  | some w => .ok w
  | none => .error ⟨[], .missingField key⟩

/-- A field that must be there, read by `read`. -/
def field (r : Record v) (key : String) (read : v.Part → Reading α) : Reading α := do
  let w ← r.required key
  (read w).within (.key key)

/-- A field that may be absent, read by `read`. -/
def optional (r : Record v) (key : String) (read : v.Part → Reading α) : Reading (Option α) :=
  match r.get? key with
  | some w => do
    let value ← (read w).within (.key key)
    return some value
  | none => .ok none

def list (r : Record v) (key : String) (read : v.Part → Reading α) : Reading (List α) :=
  r.field key fun w => w.val.readItems fun item => read (w.widen item)

def entries (r : Record v) (key : String) (read : String → v.Part → Reading α) :
    Reading (List α) :=
  r.field key fun w => w.val.readEntries fun name value => read name (w.widen value)

def string (r : Record v) (key : String) : Reading String :=
  r.field key (Json.asString ·)

def string? (r : Record v) (key : String) : Reading (Option String) :=
  r.optional key (Json.asString ·)

def bool (r : Record v) (key : String) : Reading Bool :=
  r.field key (Json.asBool ·)

def uint32 (r : Record v) (key : String) : Reading UInt32 :=
  r.field key (Json.asUInt32 ·)

def id (r : Record v) (key : String) : Reading ItemId :=
  r.field key (Json.asId ·)

def id? (r : Record v) (key : String) : Reading (Option ItemId) :=
  r.optional key (Json.asId ·)

def ids (r : Record v) (key : String) : Reading (List ItemId) :=
  r.list key (Json.asId ·)

def strings (r : Record v) (key : String) : Reading (List String) :=
  r.list key (Json.asString ·)

def tag (r : Record v) : Reading String :=
  r.string "tag"

/-- The fault of a tagged record whose tag names no variant of its choice. -/
def unknownTag (_ : Record v) (choice : Choice) (tag : String) : Reading α :=
  .error ⟨[.key "tag"], .unknownVariant choice tag⟩

end Record

end CrateDocs
