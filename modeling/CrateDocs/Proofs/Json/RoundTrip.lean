import CrateDocs.Proofs.Json.Depth
import CrateDocs.Proofs.Json.Lexemes

/-!
# What is written is read back

From the lexemes of a canonical value the reader puts the same value together, provided that the
value, where it stands, does not nest deeper than the limit. So an integral value of this kind
survives being written as text.
-/

namespace CrateDocs

open Json

namespace Reader

variable {limit : Nat} {state middle next : State} {lexeme : Lexeme} {before after : List Lexeme}
  {frames : List Frame}

/-- Whether some lexemes lead from one state to another. -/
def Reads (limit : Nat) (state : State) (lexemes : List Lexeme) (next : State) : Prop :=
  lexemes.foldlM (step limit) state = some next

theorem Reads.cons (hstep : step limit state lexeme = some middle)
    (h : Reads limit middle after next) : Reads limit state (lexeme :: after) next := by
  rw [Reads, List.foldlM_cons, hstep]
  exact h

theorem Reads.single (hstep : step limit state lexeme = some next) :
    Reads limit state [lexeme] next :=
  .cons hstep rfl

theorem Reads.append (hbefore : Reads limit state before middle)
    (hafter : Reads limit middle after next) : Reads limit state (before ++ after) next := by
  rw [Reads, List.foldlM_append, hbefore]
  exact hafter

theorem exists_lexemes_eq_cons (v : Json) :
    ∃ lexeme rest, v.lexemes = lexeme :: rest ∧ lexeme ≠ .closeArray := by
  rcases v with _ | _ | _ | _ | ⟨_ | _⟩ | ⟨_ | _⟩
  all_goals
    refine ⟨_, _, rfl, ?_⟩
    nofun

/-- The first item of an array is read like any other value. -/
theorem Reads.firstItem {v : Json} (h : Reads limit (.value (.array [] :: frames)) v.lexemes next) :
    Reads limit (.firstItem frames) v.lexemes next := by
  obtain ⟨lexeme, rest, hlexemes, hne⟩ := exists_lexemes_eq_cons v
  have hstep : step limit (.firstItem frames) lexeme =
      step limit (.value (.array [] :: frames)) lexeme := by
    cases lexeme with
    | closeArray => exact absurd rfl hne
    | _ => rfl
  rw [Reads, hlexemes, List.foldlM_cons] at h ⊢
  rwa [hstep]

theorem step_openArray (h : frames.length < limit) :
    step limit (.value frames) .openArray = some (.firstItem frames) :=
  if_pos h

theorem step_openObject (h : frames.length < limit) :
    step limit (.value frames) .openObject = some (.firstKey frames) :=
  if_pos h

mutual

/-- The lexemes of a canonical value make up this value. -/
theorem reads_lexemes : {v : Json} → v.Canonical → (frames : List Frame) →
    frames.length + v.depth ≤ limit → Reads limit (.value frames) v.lexemes (.after frames v)
  | .null, _, _, _ | .bool _, _, _, _ | .num _, _, _, _ | .str _, _, _, _ => .single rfl
  | .arr [], _, frames, hdepth => .cons (step_openArray hdepth) (.single rfl)
  | .arr (item :: items), ⟨h, hs⟩, frames, hdepth => by
    rw [depth_arr_cons] at hdepth
    have hlength : frames.length < limit := by omega
    have hitem := reads_lexemes h (.array [] :: frames) (by rw [List.length_cons]; omega)
    have hitems := reads_items hs frames [] item (by omega)
    exact .cons (step_openArray hlength) (hitem.firstItem.append hitems)
  | .obj [], _, frames, hdepth => .cons (step_openObject hdepth) (.single rfl)
  | .obj ((key, v) :: members), ⟨hascending, h, hs⟩, frames, hdepth => by
    rw [depth_obj_cons] at hdepth
    have hlength : frames.length < limit := by omega
    have hvalue := reads_lexemes h (.object [] key :: frames) (by rw [List.length_cons]; omega)
    have hmembers := reads_members hs frames [] key v (by omega)
    have hclose : closeObject (members.reverse ++ [(key, v)]) = .obj ((key, v) :: members) := by
      rw [closeObject, List.reverse_append, List.reverse_reverse, List.reverse_singleton,
        List.singleton_append, sortMembers_of_ascending hascending]
    rw [hclose] at hmembers
    exact .cons (step_openObject hlength) (.cons rfl (.cons rfl (hvalue.append hmembers)))

/-- Further items are added to the open array, up to its end. -/
theorem reads_items : {items : List Json} → CanonicalItems items → (frames : List Frame) →
    (done : List Json) → (v : Json) → frames.length + (arr items).depth ≤ limit →
      Reads limit (.after (.array done :: frames) v) (lexemesOfItems items ++ [.closeArray])
        (.after frames (.arr (done.reverse ++ v :: items)))
  | [], _, frames, done, v, _ => by
    rw [← List.reverse_cons]
    exact .single rfl
  | item :: items, ⟨h, hs⟩, frames, done, v, hdepth => by
    rw [depth_arr_cons] at hdepth
    have hitem := reads_lexemes h (.array (v :: done) :: frames) (by rw [List.length_cons]; omega)
    have hitems := reads_items hs frames (v :: done) item (by omega)
    rw [List.reverse_cons, List.append_assoc, List.singleton_append] at hitems
    rw [lexemesOfItems, List.cons_append, List.append_assoc]
    exact .cons rfl (hitem.append hitems)

/-- Further members are added to the open object, up to its end. -/
theorem reads_members : {members : List (String × Json)} → CanonicalMembers members →
    (frames : List Frame) → (done : List (String × Json)) → (key : String) → (v : Json) →
    frames.length + (obj members).depth ≤ limit →
      Reads limit (.after (.object done key :: frames) v)
        (lexemesOfMembers members ++ [.closeObject])
        (.after frames (closeObject (members.reverse ++ (key, v) :: done)))
  | [], _, frames, done, key, v, _ => .single rfl
  | (name, w) :: members, ⟨h, hs⟩, frames, done, key, v, hdepth => by
    rw [depth_obj_cons] at hdepth
    have hvalue := reads_lexemes h (.object ((key, v) :: done) name :: frames)
      (by rw [List.length_cons]; omega)
    have hmembers := reads_members hs frames ((key, v) :: done) name w (by omega)
    rw [lexemesOfMembers, List.cons_append, List.cons_append, List.cons_append,
      List.append_assoc, List.reverse_cons, List.append_assoc, List.singleton_append]
    exact .cons rfl (.cons rfl (.cons rfl (hvalue.append hmembers)))

end

end Reader

namespace Json

theorem ofLexemes?_lexemes {limit : Nat} {v : Json} (h : v.Canonical) (hdepth : v.depth ≤ limit) :
    ofLexemes? limit v.lexemes = some v := by
  have hreads : Reader.Reads limit (.value []) v.lexemes (.after [] v) :=
    Reader.reads_lexemes h [] (by simpa using hdepth)
  rw [ofLexemes?, hreads]
  rfl

/-- A canonical value whose numbers are integers is read back from its text if it does not nest
deeper than the limit. -/
theorem ofTextWithin?_render {limit : Nat} {v : Json} (h : v.Canonical) (hnumbers : v.Integral)
    (hdepth : v.depth ≤ limit) : ofTextWithin? limit v.render = some v := by
  rw [ofTextWithin?, Lexeme.ofText?_render hnumbers, Option.bind_eq_bind, Option.bind_some,
    ofLexemes?_lexemes h hdepth]

end Json

end CrateDocs
