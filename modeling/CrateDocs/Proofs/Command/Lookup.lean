import CrateDocs.Command.Run
import CrateDocs.Proofs.Crate.Search
import CrateDocs.Proofs.ItemPath.RoundTrip

/-!
# What a lookup answers

A lookup describes what its text stands for: the identifier that the text is, or else the smallest
identifier with the path that is read from it. Where the text stands for nothing, each suggestion
can be followed, by its identifier and by its path.
-/

namespace CrateDocs

namespace Crate

/-- Whether a text is an identifier of one of the tables. -/
def Identifies (crate : Crate) (text : String) : Prop :=
  ⟨text⟩ ∈ crate.index ∨ ⟨text⟩ ∈ crate.paths

instance (crate : Crate) (text : String) : Decidable (crate.Identifies text) :=
  inferInstanceAs (Decidable (_ ∨ _))

theorem lookup?_of_not_identifies {crate : Crate} {text : String} (h : ¬ crate.Identifies text) :
    crate.lookup? ⟨text⟩ = none :=
  Option.not_isSome_iff_eq_none.1 (mt isSome_lookup?.1 h)

/-- What a text stands for from which a path is read: the identifier that it is verbatim, or else
the smallest one with the path. -/
inductive Target (crate : Crate) (text : String) (path : ItemPath) : ItemId → Prop
  | identifier (h : crate.Identifies text) : Target crate text path ⟨text⟩
  | path {id : ItemId} (hnone : ¬ crate.Identifies text) (h : crate.IsSmallestAt path id) :
      Target crate text path id

end Crate

namespace Command

open Crate

/-- Whether an outcome describes what an identifier stands for. The first line gives its kind and
the identifier. -/
structure Outcome.Describes (outcome : Outcome) (crate : Crate) (id : ItemId) : Prop where
  exitCode_eq : outcome.exitCode = 0
  exists_node : ∃ node rest, crate.lookup? id = some node ∧
    outcome = .finished true (Report.nodeLines crate node) ∧
    outcome.output = node.kind.name ++ " " ++ id.text ++ "\n" ++ rest

/-- Whether a line shows a suggestion: its path, and in brackets its identifier and its score. -/
def ShownBy (suggestion : Suggestion) (line : String) : Prop :=
  line = "  " ++ suggestion.path.render ++ " (" ++ suggestion.id.text ++ ", " ++
    Decimal.fixed 2 suggestion.score ++ ")"

/-- Whether lines list suggestions, one by one under a heading. There is no heading if there is
nothing to list. -/
inductive ListedBy : List Suggestion → List String → Prop
  | nil : ListedBy [] []
  | cons {suggestion : Suggestion} {suggestions : List Suggestion} {line : String}
      {lines : List String} : ShownBy suggestion line → List.Forall₂ ShownBy suggestions lines →
      ListedBy (suggestion :: suggestions) ("did you mean:" :: line :: lines)

/-- Whether an outcome is that nothing was found for a text. The first line repeats the text, and
the lines below it list suggestions. -/
structure Outcome.Suggests (outcome : Outcome) (query : String) (suggestions : List Suggestion) :
    Prop where
  exitCode_eq : outcome.exitCode = 1
  outcome_eq : outcome = .finished false (Report.missLines query suggestions)
  exists_lines : ∃ lines, ListedBy suggestions lines ∧
    outcome = .finished false (("nothing found for `" ++ query ++ "`") :: lines) ∧
    outcome.output =
      "nothing found for `" ++ query ++ "`" ++ "\n" ++ String.join (lines.map (· ++ "\n"))

/-- Whether a suggestion is an identifier with its path, and is found by the one, and by the other
provided that it is read back from what is written for it. -/
structure CanFollow (crate : Crate) (suggestion : Suggestion) : Prop where
  pathOf?_eq : crate.pathOf? suggestion.id = some suggestion.path
  by_id : ∀ limit, (lookup crate suggestion.id.text limit).Describes crate suggestion.id
  by_path : suggestion.path.Legible →
    ∃ id, crate.Target suggestion.path.render suggestion.path id ∧
      ∀ limit, (lookup crate suggestion.path.render limit).Describes crate id

/-- What a lookup answers: it succeeds exactly if the text is an identifier or an identifier has the
path that is read from it, and then describes the target of the text. Otherwise it lists as many
suggestions as there are paths, up to the limit, and each of them can be followed. -/
structure Answers (crate : Crate) (query : String) (limit : Nat) : Prop where
  exitCode_eq_zero_iff : (lookup crate query limit).exitCode = 0 ↔
    crate.Identifies query ∨ ∃ id, crate.pathOf? id = some (.parse query)
  found : (lookup crate query limit).exitCode = 0 →
    ∃ id, crate.Target query (.parse query) id ∧ (lookup crate query limit).Describes crate id
  missed : (lookup crate query limit).exitCode ≠ 0 →
    (lookup crate query limit).Suggests query (crate.suggest query limit) ∧
      (crate.suggest query limit).length = min limit crate.paths.size ∧
      ∀ suggestion ∈ crate.suggest query limit, CanFollow crate suggestion

variable {crate : Crate} {query : String} {limit : Nat}

theorem output_finished (success : Bool) (line : String) (lines : List String) :
    (Outcome.finished success (line :: lines)).output =
      line ++ "\n" ++ (Outcome.finished success lines).output := by
  rw [Outcome.output, List.map_cons, String.join_cons, Outcome.output]

/-- What is found under a text is what is found under its target. -/
theorem resolve?_of_target {id : ItemId} (h : crate.Target query (.parse query) id) :
    ∃ node, crate.lookup? id = some node ∧ resolve? crate query = some node := by
  cases h with
  | identifier h =>
    obtain ⟨node, hnode⟩ := Option.isSome_iff_exists.1 (isSome_lookup?.2 h)
    exact ⟨node, hnode, by rw [resolve?, hnode]; rfl⟩
  | path hnone hsmallest =>
    obtain ⟨node, hnode⟩ := exists_lookup?_of_pathOf? hsmallest.pathOf?_eq
    refine ⟨node, hnode, ?_⟩
    rw [resolve?, lookup?_of_not_identifies hnone, lookupPath?, idAt?_eq_some_iff.2 hsmallest]
    exact hnode

theorem describes_of_target (hcrate : crate.WellFormed) {id : ItemId}
    (h : crate.Target query (.parse query) id) (limit : Nat) :
    (lookup crate query limit).Describes crate id := by
  obtain ⟨node, hnode, hresolve⟩ := resolve?_of_target h
  have hlookup : lookup crate query limit = .finished true (Report.nodeLines crate node) := by
    rw [lookup, hresolve]
  obtain ⟨lines, hlines⟩ : ∃ lines,
      Report.nodeLines crate node = (node.kind.name ++ " " ++ node.id.text) :: lines := ⟨_, rfl⟩
  have houtput : (lookup crate query limit).output =
      node.kind.name ++ " " ++ id.text ++ "\n" ++ (Outcome.finished true lines).output := by
    rw [hlookup, hlines, output_finished, hcrate.id_of_lookup? hnode]
  exact ⟨by rw [hlookup]; rfl, node, _, hnode, hlookup, houtput⟩

/-- A text has a target as soon as it is an identifier or an identifier has its path. -/
theorem exists_target (text : String) {path : ItemPath}
    (h : crate.Identifies text ∨ ∃ id, crate.pathOf? id = some path) :
    ∃ id, crate.Target text path id := by
  by_cases hid : crate.Identifies text
  · exact ⟨⟨text⟩, .identifier hid⟩
  · obtain ⟨other, hother⟩ := h.resolve_left hid
    obtain ⟨id, hfound⟩ := exists_idAt? hother
    exact ⟨id, .path hid (isSmallestAt_of_idAt? hfound)⟩

/-- What is printed when nothing was found. -/
theorem exists_missLines_eq (query : String) (suggestions : List Suggestion) :
    ∃ lines, Report.missLines query suggestions = ("nothing found for `" ++ query ++ "`") :: lines ∧
      ListedBy suggestions lines := by
  refine ⟨_, rfl, ?_⟩
  cases suggestions with
  | nil => exact .nil
  | cons suggestion suggestions =>
    have hlines : List.Forall₂ ShownBy suggestions (suggestions.map Report.suggestionLine) :=
      List.forall₂_map_right_iff.2 (List.forall₂_same.2 fun _ _ => rfl)
    exact .cons rfl hlines

theorem suggests_missLines (query : String) (suggestions : List Suggestion) :
    (Outcome.finished false (Report.missLines query suggestions)).Suggests query suggestions := by
  obtain ⟨lines, hlines, hlisted⟩ := exists_missLines_eq query suggestions
  refine ⟨rfl, rfl, lines, hlisted, by rw [hlines], ?_⟩
  rw [hlines, output_finished, Outcome.output]

theorem lookup_of_not_found (limit : Nat)
    (h : ¬ (crate.Identifies query ∨ ∃ id, crate.pathOf? id = some (.parse query))) :
    lookup crate query limit =
      .finished false (Report.missLines query (crate.suggest query limit)) := by
  rw [not_or, not_exists] at h
  have hpath : crate.idAt? (.parse query) = none := by
    rw [Option.eq_none_iff_forall_ne_some]
    intro id hfound
    exact h.2 id (isSmallestAt_of_idAt? hfound).pathOf?_eq
  rw [lookup, resolve?, lookup?_of_not_identifies h.1, lookupPath?, hpath]
  rfl

/-- A suggestion is found under its identifier, and under the path that is written for it if this is
read back. -/
theorem canFollow_of_pathOf? (hcrate : crate.WellFormed) {suggestion : Suggestion}
    (h : crate.pathOf? suggestion.id = some suggestion.path) : CanFollow crate suggestion where
  pathOf?_eq := h
  by_id := by
    obtain ⟨node, hnode⟩ := exists_lookup?_of_pathOf? h
    have hid : crate.Identifies suggestion.id.text := isSome_lookup?.1 (by rw [hnode]; rfl)
    exact describes_of_target hcrate (.identifier hid)
  by_path hlegible := by
    obtain ⟨id, htarget⟩ := exists_target suggestion.path.render (.inr ⟨_, h⟩)
    refine ⟨id, htarget, describes_of_target hcrate ?_⟩
    rw [hlegible.parse_render]
    exact htarget

/-- Every lookup in a decoded crate finds exactly what is there, and answers with suggestions that
lead somewhere otherwise. -/
theorem answers_of_decode {mode : Mode} {document : Json} {decoded : Decoded}
    (h : decode mode document = .ok decoded) (query : String) (limit : Nat) :
    Answers decoded.crate query limit := by
  have hcrate := wellFormed_of_decode h
  by_cases hfound : decoded.crate.Identifies query ∨
      ∃ id, decoded.crate.pathOf? id = some (.parse query)
  · obtain ⟨id, htarget⟩ := exists_target query hfound
    have hdescribes := describes_of_target hcrate htarget limit
    constructor
    · exact iff_of_true hdescribes.exitCode_eq hfound
    · exact fun _ => ⟨id, htarget, hdescribes⟩
    · exact fun hne => absurd hdescribes.exitCode_eq hne
  · have hmissed := suggests_missLines query (decoded.crate.suggest query limit)
    rw [← lookup_of_not_found limit hfound] at hmissed
    have hne : (lookup decoded.crate query limit).exitCode ≠ 0 := by
      rw [hmissed.exitCode_eq]
      exact Nat.one_ne_zero
    constructor
    · exact iff_of_false hne hfound
    · exact fun hzero => absurd hzero hne
    · refine fun _ => ⟨hmissed, length_suggestBy _ _ _, ?_⟩
      intro suggestion hsuggestion
      exact canFollow_of_pathOf? hcrate (pathOf?_of_mem_suggestBy hsuggestion)

/-- A path that two identifiers have, written with blanks and a pair of colons after it, and a text
that nothing has. -/
theorem answers_twinModules :
    ∃ decoded, decode .strict twinModules = .ok decoded ∧
      (lookup decoded.crate " twins ::" 5).exitCode = 0 ∧
      ∃ suggestions, (lookup decoded.crate "twin" 5).Suggests "twin" suggestions ∧
        suggestions.length = 2 ∧
        ∀ suggestion ∈ suggestions, CanFollow decoded.crate suggestion := by
  have h : decode .strict twinModules = .ok _ := rfl
  have hfound := answers_of_decode h " twins ::" 5
  have hmissed := answers_of_decode h "twin" 5
  refine ⟨_, h, hfound.exitCode_eq_zero_iff.2 (.inr ⟨⟨"2"⟩, by decide +kernel⟩), ?_⟩
  obtain ⟨hsuggests, hlength, hfollow⟩ := hmissed.missed <| by
    rw [Ne, hmissed.exitCode_eq_zero_iff]
    intro hexists
    rcases hexists with hid | ⟨id, hpath⟩
    · exact absurd hid (by decide +kernel)
    · exact absurd (Option.isSome_iff_exists.2 (exists_idAt? hpath)) (by decide +kernel)
  exact ⟨_, hsuggests, hlength.trans (by decide +kernel), hfollow⟩

end Command

end CrateDocs
