/-!
# Slots

A slot holds at most one value and is filled at most once. What is given once on a command line or
in a settings file goes into a slot.
-/

namespace CrateDocs

abbrev Slot (α : Type) : Type := Option α

/-- Fills an empty slot with a value; none if the slot is not empty, or if there is no value. -/
def Slot.fill? {α : Type} (slot : Slot α) (value : Option α) : Option (Slot α) :=
  if slot.isSome || value.isNone then none else some value

end CrateDocs
