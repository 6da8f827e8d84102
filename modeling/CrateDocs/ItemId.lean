/-!
# Item identifiers

An identifier names an item inside one document. Its text has no inner structure: identifiers are
only compared, and they are ordered as their texts are.
-/

namespace CrateDocs

/-- The name of an item inside one document. -/
structure ItemId where
  text : String
deriving DecidableEq

namespace ItemId

/-- Identifiers are ordered by their texts, code point by code point. -/
instance : Ord ItemId := ⟨fun a b => compare a.text b.text⟩

theorem compare_eq (a b : ItemId) : compare a b = compare a.text b.text := rfl

instance : Std.TransOrd ItemId where
  eq_swap {a b} := show compare a.text b.text = _ from Std.OrientedOrd.eq_swap
  isLE_trans {a b c} := show (compare a.text b.text).isLE → (compare b.text c.text).isLE → _ from
    Std.TransOrd.isLE_trans

instance : Std.LawfulEqOrd ItemId where
  compare_self {a} := show compare a.text a.text = .eq from Std.ReflOrd.compare_self
  eq_of_compare {a b} h := congrArg ItemId.mk <|
    Std.LawfulEqOrd.eq_of_compare (h : compare a.text b.text = .eq)

end ItemId

end CrateDocs
