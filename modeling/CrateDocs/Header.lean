import CrateDocs.Record

/-!
# Function headers

The qualifiers of a function and the calling convention that it follows, with their written form.
-/

namespace CrateDocs

/-- The calling conventions that may be told to unwind. -/
inductive Convention
  | c
  | cdecl
  | stdcall
  | fastcall
  | aapcs
  | win64
  | sysV64
  | system
deriving DecidableEq

namespace Convention

def all : List Convention :=
  [.c, .cdecl, .stdcall, .fastcall, .aapcs, .win64, .sysV64, .system]

def name : Convention → String
  | c => "C"
  | cdecl => "Cdecl"
  | stdcall => "Stdcall"
  | fastcall => "Fastcall"
  | aapcs => "Aapcs"
  | win64 => "Win64"
  | sysV64 => "SysV64"
  | system => "System"

def ofName? (name : String) : Option Convention :=
  all.find? fun convention => convention.name == name

theorem ofName?_name (convention : Convention) : ofName? convention.name = some convention := by
  cases convention <;> decide

end Convention

/-- How a function is called. -/
inductive Abi
  | rust
  | standard (convention : Convention) (unwind : Bool)
  | other (name : String)
deriving DecidableEq

/-- The qualifiers of a function. -/
structure Header where
  isConst : Bool
  isUnsafe : Bool
  isAsync : Bool
  abi : Abi
deriving DecidableEq

def Abi.toJson : Abi → Json
  | .rust => .obj [("tag", .str "Rust")]
  | .standard convention unwind => .obj [("tag", .str convention.name), ("unwind", .bool unwind)]
  | .other name => .obj [("tag", .str "Other"), ("name", .str name)]

def Header.toJson (header : Header) : Json :=
  .obj [("is_const", .bool header.isConst), ("is_unsafe", .bool header.isUnsafe),
    ("is_async", .bool header.isAsync), ("abi", header.abi.toJson)]

def Abi.read (v : Json) : Reading Abi := do
  let r ← v.asRecord
  match ← r.tag with
  | "Rust" => return .rust
  | "Other" => return .other (← r.string "name")
  | tag =>
    match Convention.ofName? tag with
    | some convention => return .standard convention (← r.bool "unwind")
    | none => r.unknownTag .abi tag

def Header.read (v : Json) : Reading Header := do
  let r ← v.asRecord
  return {
    isConst := ← r.bool "is_const"
    isUnsafe := ← r.bool "is_unsafe"
    isAsync := ← r.bool "is_async"
    abi := ← r.field "abi" (Abi.read ·) }

end CrateDocs
