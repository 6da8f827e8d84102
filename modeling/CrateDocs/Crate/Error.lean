import CrateDocs.Crate.Basic
import CrateDocs.Fault

/-!
# Why a document is not a crate

The errors of decoding, and their texts. Those that are fatal end a decoding; the others may be
tolerated and reported beside the result.
-/

namespace CrateDocs

inductive RootProblem
  | notInIndex
  | notModule (kind : ItemKind)
deriving DecidableEq

/-- Why a document is not a crate. -/
inductive DecodeError
  | malformed
  /-- A value departs from the format. -/
  | fault (fault : Fault)
  | unsupportedVersion (found : Int)
  /-- An item mentions another one that is not described. -/
  | danglingReference (id referrer : ItemId)
  | invalidRoot (root : ItemId) (problem : RootProblem)
  /-- An item stands under the identifier of another one. -/
  | keyMismatch (key id : ItemId)
deriving DecidableEq

def RootProblem.message : RootProblem → String
  | .notInIndex => "no such item in the index"
  | .notModule kind => "expected a Module, found a " ++ kind.name

namespace DecodeError

/-- Whether an error is never tolerated. -/
def isFatal : DecodeError → Bool
  | malformed | unsupportedVersion _ | invalidRoot _ _ => true
  | fault _ | danglingReference _ _ | keyMismatch _ _ => false

/-- The same error, seen from one step further out. -/
def within (segment : Segment) : DecodeError → DecodeError
  | fault f => fault (f.within segment)
  | error => error

def message : DecodeError → String
  | malformed => "input is not valid JSON"
  | fault f => f.message
  | unsupportedVersion found =>
    "the document uses format version " ++ toString found ++ ", but only version " ++
      toString Crate.supportedVersion.toNat ++ " is supported"
  | danglingReference id referrer =>
    "item `" ++ referrer.text ++ "` refers to `" ++ id.text ++
      "`, which is in neither `index` nor `paths`"
  | invalidRoot root problem => "invalid crate root `" ++ root.text ++ "`: " ++ problem.message
  | keyMismatch key id =>
    "index entry `" ++ key.text ++ "` describes an item with id `" ++ id.text ++ "`"

end DecodeError

instance : MonadLift (Except Fault) (Except DecodeError) :=
  ⟨fun reading => reading.mapError .fault⟩

end CrateDocs
