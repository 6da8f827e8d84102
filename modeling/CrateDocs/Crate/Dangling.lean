import CrateDocs.Crate.Error
import CrateDocs.Survey.Mentions

/-!
# Checks of a whole crate

Every item that is mentioned has to be described, and the root has to be a module of the index. An
identifier that is missing is reported once, together with the first item that mentions it.
-/

namespace CrateDocs

/-- The identifiers that an item mentions: the module that its visibility refers to, then those of
its payload. -/
def Item.mentions (item : Item) : List ItemId :=
  item.visibility.parent?.toList ++ item.payload.mentions

structure Mention where
  id : ItemId
  referrer : ItemId
deriving DecidableEq

/-- The first mention of each identifier, apart from the identifiers already seen. -/
def Mention.firsts (seen : Std.ExtTreeSet ItemId compare) : List Mention → List Mention
  | [] => []
  | mention :: rest =>
    if mention.id ∈ seen then Mention.firsts seen rest
    else mention :: Mention.firsts (seen.insert mention.id) rest

namespace Crate

/-- All mentions, those of the item with the smallest identifier first. -/
def mentions (crate : Crate) : List Mention :=
  crate.index.toList.flatMap fun (_, item) => item.mentions.map (⟨·, item.id⟩)

/-- The mentions of items that are not described, one for each identifier. -/
def danglingMentions (crate : Crate) : List Mention :=
  Mention.firsts ∅ (crate.mentions.filter fun mention => !crate.describes mention.id)

def danglingReferences (crate : Crate) : List DecodeError :=
  crate.danglingMentions.map fun mention => .danglingReference mention.id mention.referrer

/-- Refuses a crate whose root is not a module of the index. -/
def checkRoot (crate : Crate) : Except DecodeError Unit :=
  match crate.index[crate.root]? with
  | some item =>
    match item.payload with
    | .module _ => .ok ()
    | payload => .error (.invalidRoot crate.root (.notModule payload.kind))
  | none => .error (.invalidRoot crate.root .notInIndex)

end Crate

end CrateDocs
