import CrateDocs.Crate.Decode
import CrateDocs.Proofs.Exactness.Record

/-!
# The strict mode makes the first report fatal

Both modes go through the same phases. They part where a phase finds problems: a strict decoding
stops at the first of them, and a lenient one goes on and lists them in the same order.
-/

namespace CrateDocs

namespace Decode

/-- Whether a strict outcome is the lenient one with its first report made fatal. -/
def FirstIsFatal (strict : Except DecodeError Decoded) : Except DecodeError Decoded → Prop
  | .ok ⟨crate, []⟩ => strict = .ok ⟨crate, []⟩
  | .ok ⟨_, first :: _⟩ => strict = .error first
  | .error _ => ∃ error, strict = .error error

namespace FirstIsFatal

variable {strict lenient : Except DecodeError Decoded} {α : Type}

/-- The phases that come before any problem are the same in both modes. -/
theorem bind {x : Except DecodeError α} {f g : α → Except DecodeError Decoded}
    (h : ∀ a, FirstIsFatal (f a) (g a)) : FirstIsFatal (x >>= f) (x >>= g) := by
  cases x with
  | error error => exact ⟨error, rfl⟩
  | ok a => exact h a

/-- A strict decoding has stopped at the problem that a lenient one lists first. -/
theorem of_error {first : DecodeError}
    (h : ∀ decoded, lenient = .ok decoded → ∃ rest, decoded.diagnostics = first :: rest) :
    FirstIsFatal (.error first) lenient := by
  cases lenient with
  | error _ => exact ⟨first, rfl⟩
  | ok decoded =>
    obtain ⟨crate, diagnostics⟩ := decoded
    obtain ⟨rest, hrest⟩ := h _ rfl
    obtain rfl : diagnostics = first :: rest := hrest
    exact rfl

/-- Without any report both outcomes are the same. -/
theorem of_nil (h : ∀ decoded, lenient = .ok decoded → decoded.diagnostics = []) :
    FirstIsFatal lenient lenient := by
  cases lenient with
  | error error => exact ⟨error, rfl⟩
  | ok decoded =>
    obtain ⟨crate, diagnostics⟩ := decoded
    obtain rfl : diagnostics = [] := h _ rfl
    exact rfl

/-- A strict decoding succeeds if and only if a lenient one has nothing to report. -/
theorem ok_iff (h : FirstIsFatal strict lenient) {crate : Crate} {diagnostics : List DecodeError} :
    strict = .ok ⟨crate, diagnostics⟩ ↔ diagnostics = [] ∧ lenient = .ok ⟨crate, []⟩ := by
  unfold FirstIsFatal at h
  split at h
  · rename_i other
    rw [h]
    constructor
    · intro heq
      cases heq
      exact ⟨rfl, rfl⟩
    · intro h
      rcases h with ⟨rfl, heq⟩
      exact heq
  · rw [h]
    simp
  · obtain ⟨error, h⟩ := h
    rw [h]
    simp

end FirstIsFatal

end Decode

open Decode Reading

/-- The modes agree on the checks that come last. -/
theorem Crate.firstIsFatal_checks (crate : Crate) :
    FirstIsFatal
      (do
        Mode.strict.tolerate crate.danglingReferences
        crate.checkRoot
        return ⟨crate, crate.danglingReferences⟩)
      (do
        Mode.lenient.tolerate crate.danglingReferences
        crate.checkRoot
        return ⟨crate, crate.danglingReferences⟩) := by
  cases crate.danglingReferences with
  | nil =>
    refine FirstIsFatal.of_nil fun decoded h => ?_
    simp only [bind_eq_ok, pure_eq_ok] at h
    obtain ⟨_, -, _, -, rfl⟩ := h
    rfl
  | cons first rest =>
    refine FirstIsFatal.of_error fun decoded h => ?_
    simp only [bind_eq_ok, pure_eq_ok] at h
    obtain ⟨_, -, _, -, rfl⟩ := h
    exact ⟨rest, rfl⟩

/-- A strict decoding stops at the first problem that a lenient one reports. -/
theorem firstIsFatal_decode (document : Json) :
    FirstIsFatal (decode .strict document) (decode .lenient document) := by
  unfold decode
  refine .bind fun r => .bind fun formatVersion => .bind fun _ => .bind fun root => ?_
  refine .bind fun includesPrivate => .bind fun version => .bind fun externalCrates => ?_
  refine .bind fun results => ?_
  -- Nothing that is found from here on comes before a broken entry of the index.
  cases dropped results with
  | nil => exact .bind fun _ => .bind fun paths => Crate.firstIsFatal_checks _
  | cons first rest =>
    refine FirstIsFatal.of_error fun decoded h => ?_
    simp only [bind_eq_ok, pure_eq_ok] at h
    obtain ⟨_, -, paths, -, _, -, _, -, rfl⟩ := h
    exact ⟨_, rfl⟩

/-- The strict mode is the lenient one with the first report made fatal. In particular it succeeds
if and only if the lenient one does so without any report. -/
theorem decode_strict_eq (document : Json) :
    (match decode .lenient document with
      | .ok ⟨crate, []⟩ => decode .strict document = .ok ⟨crate, []⟩
      | .ok ⟨_, first :: _⟩ => decode .strict document = .error first
      | .error _ => ∃ error, decode .strict document = .error error) ∧
    ((∃ decoded, decode .strict document = .ok decoded) ↔
      ∃ crate, decode .lenient document = .ok ⟨crate, []⟩) := by
  have h := firstIsFatal_decode document
  refine ⟨h, ?_⟩
  constructor
  · intro h
    rcases h with ⟨⟨crate, diagnostics⟩, hstrict⟩
    exact ⟨crate, (h.ok_iff.1 hstrict).2⟩
  · intro h
    rcases h with ⟨crate, hlenient⟩
    exact ⟨⟨crate, []⟩, h.ok_iff.2 ⟨rfl, hlenient⟩⟩

end CrateDocs
