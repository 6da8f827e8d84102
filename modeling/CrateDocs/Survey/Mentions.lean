import CrateDocs.Survey.Basic

/-!
# Mentioned items

The identifiers that a payload mentions, once for each place and in the order in which a survey
meets them.
-/

namespace CrateDocs

def Survey.mentions : Survey ItemId where
  id := fun id => [id]

/-- The identifiers that a payload mentions, in the order in which they are met. -/
def Payload.mentions (payload : Payload) : List ItemId :=
  payload.gather Survey.mentions

end CrateDocs
