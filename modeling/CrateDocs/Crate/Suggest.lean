import CrateDocs.Binary64
import CrateDocs.Crate.Lookup
import CrateDocs.Similarity

/-!
# Suggestions

A path that is not found may be misspelt. The paths of a crate are ranked by their similarity to a
text; of equally similar paths the more canonical one comes first, and what is still undecided is
settled by the names of the path and then by the identifier.
-/

namespace CrateDocs

structure Suggestion where
  id : ItemId
  path : ItemPath
  score : Float

namespace Suggestion

/-- The order of suggestions: the better one is less. -/
def order (a b : Suggestion) : Ordering :=
  (compare (Binary64.rank b.score) (Binary64.rank a.score)).then <|
    (compare b.path.canonicality a.path.canonicality).then <|
      (compare a.path b.path).then (compare a.id b.id)

end Suggestion

namespace Crate

/-- The best suggestions, at most `limit` of them, where `score` rates each path. -/
def suggestBy (crate : Crate) (score : ItemPath → Float) (limit : Nat) : List Suggestion :=
  let all := crate.paths.toList.map fun (id, summary) =>
    { id, path := summary.path, score := score summary.path : Suggestion }
  (all.mergeSort fun a b => (a.order b).isLE).take limit

def suggest (crate : Crate) (text : String) (limit : Nat) : List Suggestion :=
  crate.suggestBy (fun path => Similarity.jaroWinkler text.toList path.render.toList) limit

end Crate

end CrateDocs
