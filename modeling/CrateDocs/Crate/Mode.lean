import CrateDocs.Crate.Error

/-!
# Modes of decoding

The mode in which a document is decoded. Options choose it by a flag that asks for the strict one.
They are a record with that flag, or an array in which the flag stands alone; where it is left out
the lenient mode is meant.
-/

namespace CrateDocs

/-- Whether problems that are not fatal are tolerated. -/
inductive Mode
  | lenient
  | strict
deriving DecidableEq

def Mode.ofStrict (flag : Bool) : Mode :=
  if flag then .strict else .lenient

def Mode.ofOptions? : Json → Option Mode
  | .obj members =>
    match members.lookup "strict" with
    | none => some .lenient
    | some (.bool flag) => some (.ofStrict flag)
    | some _ => none
  | .arr [] => some .lenient
  | .arr [.bool flag] => some (.ofStrict flag)
  | _ => none

/-- Stops a strict decoding at the first of the problems found. -/
def Mode.tolerate : Mode → List DecodeError → Except DecodeError Unit
  | .strict, problem :: _ => .error problem
  | _, _ => .ok ()

end CrateDocs
