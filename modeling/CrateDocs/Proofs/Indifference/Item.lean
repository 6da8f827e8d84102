import CrateDocs.Proofs.Indifference.TypeExpr

/-!
# Items that look alike

The payload of an item, and the records that all items have, are read through their layouts.
-/

namespace CrateDocs

open Json Reading

variable {v w : Json} {r : Record v} {r' : Record w}

theorem WherePredicate.respects_read : Respects (.record .wherePredicate) WherePredicate.read := by
  intro v w h
  apply Record.Alike.asRecord_bind h
  intro r r' h
  apply h.tagged
  intro tag h
  split
  · rw [h.read rfl TypeExpr.respects_read, h.readAll rfl Bound.respects_read,
      h.readAll rfl Param.respects_read]
  · rw [h.string rfl, h.readAll rfl Bound.respects_read]
  · rw [h.read rfl TypeExpr.respects_read, h.read rfl Term.respects_read]
  · rfl

theorem Generics.respects_read : Respects (.record .generics) Generics.read := by
  intro v w h
  apply Record.Alike.asRecord_bind h
  intro r r' h
  rw [h.readAll rfl Param.respects_read, h.readAll rfl WherePredicate.respects_read]

theorem Discriminant.respects_read : Respects (.record .discriminant) Discriminant.read := by
  intro v w h
  apply Record.Alike.asRecord_bind h
  intro r r' h
  rw [h.string rfl, h.string rfl]

theorem Signature.ofRecord_congr (h : r.Alike Signature.fields r') :
    Signature.ofRecord r = Signature.ofRecord r' := by
  unfold Signature.ofRecord
  rw [h.read rfl FnDecl.respects_read, h.read rfl Generics.respects_read,
    h.read rfl Header.respects_read]

theorem Payload.ofRecord_congr {tag : String}
    (h : r.Alike (("tag", .whole) :: Payload.fields tag) r') :
    Payload.ofRecord r tag = Payload.ofRecord r' tag := by
  unfold Payload.ofRecord
  split
  · rw [h.bool rfl, h.ids rfl, h.bool rfl]
  · rw [h.string rfl, h.string? rfl]
  · rw [h.string rfl, h.string rfl, h.id? rfl, h.bool rfl]
  · rw [h.read rfl Generics.respects_read, h.bool rfl, h.ids rfl, h.ids rfl]
  · rw [h.variant rfl, h.read rfl Generics.respects_read, h.bool rfl, h.ids rfl, h.ids rfl]
  · rw [h.read rfl TypeExpr.respects_read]
  · rw [h.read rfl Generics.respects_read, h.bool rfl, h.ids rfl, h.ids rfl]
  · rw [h.variant rfl, h.ids rfl, h.bool rfl,
      h.read? rfl Discriminant.respects_read]
  · rw [Signature.ofRecord_congr (h.of_cons rfl)]
  · rw [Signature.ofRecord_congr (h.of_cons rfl).of_append, h.bool rfl]
  · rw [h.bool rfl, h.bool rfl, h.ids rfl, h.read rfl Generics.respects_read,
      h.readAll rfl Bound.respects_read, h.ids rfl]
  · rw [h.read rfl Generics.respects_read, h.readAll rfl Bound.respects_read]
  · rw [h.bool rfl, h.read rfl Generics.respects_read, h.strings rfl,
      h.read? rfl TypeExpr.respects_read, h.read rfl TypeExpr.respects_read, h.ids rfl, h.bool rfl,
      h.bool rfl, h.read? rfl TypeExpr.respects_read]
  · rw [h.read rfl TypeExpr.respects_read, h.read rfl Generics.respects_read]
  · rw [h.readAll rfl Bound.respects_read, h.read rfl Generics.respects_read]
  · rw [Constant.ofRecord_congr Category.agreesWith_read (h.of_cons rfl)]
  · rw [h.read rfl TypeExpr.respects_read, h.bool rfl, h.string rfl]
  · rfl
  · rw [h.string rfl]
  · rw [h.variant rfl, h.strings rfl]
  · rw [h.string rfl]
  · rw [h.read rfl TypeExpr.respects_read, h.string? rfl]
  · rw [h.read rfl Generics.respects_read, h.readAll rfl Bound.respects_read,
      h.read? rfl TypeExpr.respects_read]
  · rfl

theorem Payload.respects_read : Respects (.record .payload) Payload.read := by
  intro v w h
  apply Record.Alike.asRecord_bind h
  intro r r' h
  apply h.tagged
  intro tag h
  exact Payload.ofRecord_congr h

theorem Visibility.respects_read : Respects (.record .visibility) Visibility.read := by
  intro v w h
  apply Record.Alike.asRecord_bind h
  intro r r' h
  apply h.tagged
  intro tag h
  split
  · rfl
  · rfl
  · rfl
  · rw [h.id rfl, h.string rfl]
  · rfl

theorem Span.respects_read : Respects (.record .span) Span.read := by
  intro v w h
  apply Record.Alike.asRecord_bind h
  intro r r' h
  have hposition : Respects .whole Position.read := respects_whole Position.read
  rw [h.string rfl, h.read rfl hposition, h.read rfl hposition]

theorem Deprecation.respects_read : Respects (.record .deprecation) Deprecation.read := by
  intro v w h
  apply Record.Alike.asRecord_bind h
  intro r r' h
  rw [h.string? rfl, h.string? rfl]

theorem Item.ofRecord_congr (id : ItemId) (h : r.Alike (RecordType.fields none .item) r') :
    Item.ofRecord id r = Item.ofRecord id r' := by
  have hlinks : r.entries "links" (fun text target => Item.readLink text target) =
      r'.entries "links" fun text target => Item.readLink text target :=
    h.read rfl (respects_whole fun v => v.readEntries fun text target => Item.readLink text target)
  unfold Item.ofRecord
  rw [h.uint32 rfl, h.string? rfl, h.read? rfl Span.respects_read,
    h.read rfl Visibility.respects_read, h.string? rfl, hlinks,
    h.strings rfl, h.read? rfl Deprecation.respects_read,
    h.read rfl Payload.respects_read]

end CrateDocs
