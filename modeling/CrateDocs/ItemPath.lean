import CrateDocs.Text.Blank

/-!
# Item paths

A path such as `std::vec::Vec` is a list of names. It is written with two colons between the names.
Reading a path is generous: blanks around names and empty names do not count.
-/

namespace CrateDocs

/-- The names that lead from a crate to an item. -/
structure ItemPath where
  segments : List String
deriving DecidableEq

namespace ItemPath

/-- The name of the item itself. -/
def name? (path : ItemPath) : Option String :=
  path.segments.getLast?

def crateName? (path : ItemPath) : Option String :=
  path.segments.head?

def render (path : ItemPath) : String :=
  "::".intercalate path.segments

/-- The characters up to the first pair of colons, and the stretches after it. -/
def split : List Char → List Char × List (List Char)
  | [] => ([], [])
  | ':' :: ':' :: rest =>
    let (segment, segments) := split rest
    ([], segment :: segments)
  | c :: rest =>
    let (segment, segments) := split rest
    (c :: segment, segments)

def parse (text : String) : ItemPath :=
  let (segment, segments) := split text.toList
  let names := (segment :: segments).map Text.trim
  ⟨(names.filter fun name => !name.isEmpty).map String.ofList⟩

/-- Whether one list of characters occurs in another without a gap. -/
def occursIn (pattern : List Char) : List Char → Bool
  | [] => pattern.isEmpty
  | c :: cs => pattern.isPrefixOf (c :: cs) || occursIn pattern cs

/-- What marks a name as internal to a crate. -/
def internalMarkers : List String :=
  ["_core", "_private", "_internal", "internal", "private", "__"]

def isInternal (segment : String) : Bool :=
  internalMarkers.any fun marker => occursIn marker.toList segment.toList

/-- The number of names after the first one. A number beyond 32 bits counts as an eighth of the
greatest one. -/
def extraSegments (segments : List String) : Int32 :=
  let extra := segments.length - 1
  if extra < 0x80000000 then Int32.ofNat extra else Int32.maxValue / 8

/-- How canonical a path is: short paths without internal names rank first. -/
def canonicality (path : ItemPath) : Int32 :=
  path.segments.foldl (fun score segment => if isInternal segment then score - 40 else score)
    (100 - extraSegments path.segments * 8)

/-- Paths are ordered name by name. -/
instance : Ord ItemPath := ⟨fun a b => compare a.segments b.segments⟩

end ItemPath

end CrateDocs
