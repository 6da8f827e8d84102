import CrateDocs.Command.Arguments
import Mathlib.Data.List.TakeWhile

/-!
# Flags on a command line

A command line is read argument by argument, and what comes of an argument does not depend on the
flags that were given before it. Command lines that differ in one flag only are therefore both
refused, or denote invocations that differ in this flag only.
-/

namespace CrateDocs

namespace Command

/-- The two flags of a check. -/
inductive Flag
  | strict
  | denyDiagnostics

namespace Flag

def name : Flag → String
  | strict => "strict"
  | denyDiagnostics => "deny-diagnostics"

def text (flag : Flag) : String :=
  "--" ++ flag.name

/-- The check that is asked for by a flag alone. -/
def action : Flag → Action
  | strict => .check false true
  | denyDiagnostics => .check true false

end Flag

/-- Only a flag stands for a flag on any level. -/
theorem Level.exists_name_eq_of_lookup {level : Level} {name : String} {option : OptionName}
    (h : level.options.lookup name = some option) (hflag : option.isFlag = true) :
    ∃ flag : Flag, flag.name = name := by
  have hmem : (name, option) ∈ level.options := by
    obtain ⟨front, back, heq, -⟩ := List.lookup_eq_some_iff.1 h
    rw [heq]
    exact List.mem_append_right front List.mem_cons_self
  cases option with
  | strict => cases level <;> simp [options] at hmem; exact ⟨.strict, hmem.symm⟩
  | denyDiagnostics => cases level <;> simp [options] at hmem; exact ⟨.denyDiagnostics, hmem.symm⟩
  | _ => cases hflag

theorem Argument.ofText_eq_separator_iff {text : String} :
    Argument.ofText text = .separator ↔ text = "--" := by
  constructor
  · intro h
    unfold Argument.ofText at h
    split at h
    · rename_i htext
      exact String.toList_inj.1 htext
    · dsimp only at h
      split at h <;> cases h
    · cases h
    · cases h
  · rintro rfl
    rfl

/-- An option without a value is written with its name alone. -/
theorem Argument.eq_of_ofText_eq_long_none {text name : String}
    (h : Argument.ofText text = .long name none) : text = "--" ++ name := by
  unfold Argument.ofText at h
  split at h
  · cases h
  · rename_i rest _ htext
    dsimp only at h
    split at h
    · cases h
    · rename_i hrest
      have hname : rest.takeWhile (· != '=') = rest := by
        have happend := List.takeWhile_append_dropWhile (p := (· != '=')) (l := rest)
        rwa [hrest, List.append_nil] at happend
      rw [hname, Argument.long.injEq] at h
      rw [← h.1, ← String.toList_inj, htext]
      simp only [String.toList_append, String.toList_ofList]
      rfl
  · cases h
  · cases h

namespace Options

variable {options next : Options} {name : OptionName} {value : String}

def give (options : Options) : Flag → Options
  | .strict => { options with strict := some () }
  | .denyDiagnostics => { options with denyDiagnostics := some () }

theorem set_give (hname : name.isFlag = false) (flag : Flag) :
    (options.give flag).set name value = (options.set name value).map fun o => o.give flag := by
  cases name with
  | strict => cases hname
  | denyDiagnostics => cases hname
  | _ => cases flag <;> simp only [set, give, bind, Option.map_bind, Function.comp_def] <;> rfl

theorem flags_eq_of_set (hname : name.isFlag = false) (h : options.set name value = some next) :
    next.strict = options.strict ∧ next.denyDiagnostics = options.denyDiagnostics := by
  cases name with
  | strict => cases hname
  | denyDiagnostics => cases hname
  | _ =>
    obtain ⟨slot, -, hnext⟩ := Option.bind_eq_some_iff.1 h
    cases hnext
    exact ⟨rfl, rfl⟩

end Options

def Invocation.give (invocation : Invocation) (flag : Flag) : Invocation :=
  { invocation with action := flag.action }

theorem Flag.text_ne_dashes (flag : Flag) : "--" ≠ flag.text := by
  cases flag <;> decide

/-- The arguments before two dashes, among which options may stand. -/
def beforeDashes (arguments : List String) : List String :=
  arguments.takeWhile (· != "--")

theorem beforeDashes_cons {text : String} {rest : List String} (h : text ≠ "--") :
    beforeDashes (text :: rest) = text :: beforeDashes rest :=
  List.takeWhile_cons_of_pos (by simpa using h)

namespace Draft

variable {draft next : Draft} {flag : Flag} {text : String}

/-- A draft after a flag. -/
def give (draft : Draft) (flag : Flag) : Draft :=
  { draft with inner := draft.inner.give flag }

@[simp] theorem level_give : (draft.give flag).level = draft.level := rfl

@[simp] theorem outer_give : (draft.give flag).outer = draft.outer := rfl

@[simp] theorem inner_give : (draft.give flag).inner = draft.inner.give flag := rfl

@[simp] theorem operands_give : (draft.give flag).operands = draft.operands := rfl

@[simp] theorem awaiting_give : (draft.give flag).awaiting = draft.awaiting := rfl

@[simp] theorem separated_give : (draft.give flag).separated = draft.separated := rfl

/-- Whether neither flag has been given, and no value for one is awaited. -/
structure Unflagged (draft : Draft) : Prop where
  strict : draft.inner.strict = none
  denyDiagnostics : draft.inner.denyDiagnostics = none
  awaiting : ∀ name, draft.awaiting = some name → name.isFlag = false

/-- Whether an extension of a draft comes to the same with a flag given before it, gives no flag
itself, and stays with a command that has been named. -/
structure Indifferent (draft : Draft) (extend : Draft → Option Draft) : Prop where
  give : ∀ flag, extend (draft.give flag) = (extend draft).map fun next => next.give flag
  unflagged : ∀ next, extend draft = some next → next.Unflagged
  level_eq : ∀ next, extend draft = some next → draft.level ≠ .top → next.level = draft.level

theorem Indifferent.refused {extend : Draft → Option Draft} (hdraft : extend draft = none)
    (hgive : ∀ flag, extend (draft.give flag) = none) : Indifferent draft extend where
  give flag := by rw [hdraft, hgive, Option.map_none]
  unflagged next h := by rw [hdraft] at h; cases h
  level_eq next h := by rw [hdraft] at h; cases h

theorem Indifferent.accepted {extend : Draft → Option Draft} (hdraft : extend draft = some next)
    (hgive : ∀ flag, extend (draft.give flag) = some (next.give flag)) (hnext : next.Unflagged)
    (hlevel : draft.level ≠ .top → next.level = draft.level) : Indifferent draft extend where
  give flag := by rw [hdraft, hgive, Option.map_some]
  unflagged other h := by
    rw [hdraft, Option.some.injEq] at h
    exact h ▸ hnext
  level_eq other h := by
    rw [hdraft, Option.some.injEq] at h
    exact h ▸ hlevel

theorem Indifferent.congr {extend other : Draft → Option Draft} (h : Indifferent draft other)
    (hdraft : extend draft = other draft)
    (hgive : ∀ flag, extend (draft.give flag) = other (draft.give flag)) :
    Indifferent draft extend where
  give flag := by rw [hdraft, hgive, h.give]
  unflagged next hnext := h.unflagged next (hdraft ▸ hnext)
  level_eq next hnext := h.level_eq next (hdraft ▸ hnext)

theorem Indifferent.bind {extend further : Draft → Option Draft} (h : Indifferent draft extend)
    (hfurther : ∀ next, extend draft = some next → Indifferent next further) :
    Indifferent draft fun draft => extend draft >>= further := by
  cases hextend : extend draft with
  | none =>
    apply Indifferent.refused
    · rw [hextend]
      rfl
    · intro flag
      rw [h.give, hextend]
      rfl
  | some next =>
    have hnext := hfurther next hextend
    have hsome : (extend draft >>= further) = further next := by
      rw [hextend]
      rfl
    constructor
    · intro flag
      rw [hsome, h.give, hextend]
      exact hnext.give flag
    · intro final hfinal
      rw [hsome] at hfinal
      exact hnext.unflagged final hfinal
    · intro final hfinal hlevel
      rw [hsome] at hfinal
      have hkept := h.level_eq next hextend hlevel
      rw [← hkept]
      exact hnext.level_eq final hfinal (hkept ▸ hlevel)

/-- What is awaited is not given twice, so that nothing is awaited after a value. -/
theorem Unflagged.indifferent_set (h : draft.Unflagged) {name : OptionName}
    (hname : name.isFlag = false) (value : String) :
    Indifferent draft fun draft => draft.set name value := by
  unfold set
  by_cases hlevel : draft.level = .top
  · cases houter : draft.outer.set name value with
    | none =>
      exact .refused (by simp [hlevel, houter]) fun flag => by simp [hlevel, houter]
    | some options =>
      have hunflagged : Unflagged { draft with outer := options, awaiting := none } :=
        ⟨h.strict, h.denyDiagnostics, fun name hname => by cases hname⟩
      refine .accepted (by simp [hlevel, houter]) (fun flag => ?_) hunflagged fun _ => rfl
      simp [hlevel, houter, give]
  · cases hinner : draft.inner.set name value with
    | none =>
      exact .refused (by simp [hinner]) fun flag => by simp [hinner, Options.set_give hname]
    | some options =>
      obtain ⟨hstrict, hdeny⟩ := Options.flags_eq_of_set hname hinner
      have hunflagged : Unflagged { draft with inner := options, awaiting := none } :=
        ⟨hstrict.trans h.strict, hdeny.trans h.denyDiagnostics, fun name hname => by cases hname⟩
      refine .accepted (by simp [hinner]) (fun flag => ?_) hunflagged fun _ => rfl
      simp [hinner, Options.set_give hname, give]

theorem Unflagged.indifferent_operand (h : draft.Unflagged) (text : String) :
    Indifferent draft fun draft => draft.operand text := by
  unfold operand
  by_cases hroom : draft.operands.length < draft.level.arity
  · exact .accepted (if_pos hroom) (fun _ => if_pos hroom)
      ⟨h.strict, h.denyDiagnostics, h.awaiting⟩ fun _ => rfl
  · exact .refused (if_neg hroom) fun _ => if_neg hroom

theorem Unflagged.indifferent_await (h : draft.Unflagged) {name : OptionName}
    (hname : name.isFlag = false) :
    Indifferent draft fun draft => some { draft with awaiting := some name } := by
  refine .accepted rfl (fun _ => rfl) ⟨h.strict, h.denyDiagnostics, ?_⟩ fun _ => rfl
  intro other hother
  cases hother
  exact hname

/-- An option is a flag only if it is written as one, and then it has no value. -/
theorem Unflagged.indifferent_long (h : draft.Unflagged) {name : String} {value : Option String}
    (hname : value = none → ∀ flag : Flag, flag.name ≠ name) :
    Indifferent draft fun draft => draft.long name value := by
  unfold long
  cases hlookup : draft.level.options.lookup name with
  | none => exact .refused (by simp [hlookup]) fun _ => by simp [hlookup]
  | some option =>
    cases hflag : option.isFlag with
    | true =>
      cases value with
      | none =>
        obtain ⟨flag, hsame⟩ := Level.exists_name_eq_of_lookup hlookup hflag
        exact absurd hsame (hname rfl flag)
      | some value => exact .refused (by simp [hlookup, hflag]) fun _ => by simp [hlookup, hflag]
    | false =>
      cases value with
      | none =>
        exact (h.indifferent_await hflag).congr (by simp [hlookup, hflag]) fun _ => by
          simp [hlookup, hflag]
      | some value =>
        exact (h.indifferent_set hflag value).congr (by simp [hlookup, hflag]) fun _ => by
          simp [hlookup, hflag]

theorem Unflagged.indifferent_short (h : draft.Unflagged) (letter : Char) (rest : List Char) :
    Indifferent draft fun draft => draft.short letter rest := by
  have hlimit : OptionName.limit.isFlag = false := rfl
  unfold short
  by_cases hletter : draft.level = .lookup ∧ letter = 'n'
  · cases rest with
    | nil =>
      exact (h.indifferent_await hlimit).congr (by simp [hletter]) fun _ => by simp [hletter]
    | cons c value =>
      by_cases hc : c = '='
      · subst hc
        have hset := h.indifferent_set hlimit (String.ofList value)
        exact hset.congr (by simp [hletter]) fun _ => by simp [hletter]
      · have hset := h.indifferent_set hlimit (String.ofList (c :: value))
        exact hset.congr (by simp [hletter, hc]) fun _ => by simp [hletter, hc]
  · exact .refused (if_neg hletter) fun _ => if_neg hletter

/-- The name of a command, or else an operand. -/
theorem Unflagged.indifferent_word (h : draft.Unflagged) (word : String) :
    Indifferent draft fun draft =>
      match draft.level with
      | .top => (Level.ofCommand? word).map fun level => { draft with level }
      | _ => draft.operand word := by
  by_cases hlevel : draft.level = .top
  · cases hcommand : Level.ofCommand? word with
    | none => exact .refused (by simp [hlevel]) fun _ => by simp [hlevel]
    | some level =>
      have hunflagged : Unflagged { draft with level } :=
        ⟨h.strict, h.denyDiagnostics, h.awaiting⟩
      refine .accepted (by simp [hlevel]) (fun _ => ?_) hunflagged fun hne => absurd hlevel hne
      simp [hlevel, give]
  · refine (h.indifferent_operand word).congr ?_ fun _ => ?_
    · split
      · contradiction
      · rfl
    · split
      · contradiction
      · rfl

theorem step_of_plain {word : String} (hseparated : draft.separated = false)
    (hawaiting : draft.awaiting = none) (hargument : Argument.ofText text = .plain word) :
    draft.step text =
      match draft.level with
      | .top => (Level.ofCommand? word).map fun level => { draft with level }
      | _ => draft.operand word := by
  cases hlevel : draft.level <;> simp [step, hseparated, hargument, hawaiting, hlevel]

/-- Any argument but a flag comes to the same with a flag before it; behind two dashes no argument
is a flag. -/
theorem Unflagged.indifferent_step (h : draft.Unflagged)
    (htext : draft.separated = true ∨ ∀ flag : Flag, text ≠ flag.text) :
    Indifferent draft fun draft => draft.step text := by
  cases hseparated : draft.separated with
  | true => exact (h.indifferent_operand text).congr (if_pos hseparated) fun _ => if_pos hseparated
  | false =>
    rw [hseparated] at htext
    have hflag := htext.resolve_left Bool.false_ne_true
    -- What an argument is taken for depends on what is awaited, which no flag changes.
    have hcongr {extend : Draft → Option Draft} (hextend : Indifferent draft extend)
        (heq : ∀ other : Draft, other.separated = false → other.awaiting = draft.awaiting →
          other.step text = extend other) : Indifferent draft fun draft => draft.step text :=
      hextend.congr (heq draft hseparated rfl) fun flag => heq (draft.give flag) hseparated rfl
    cases hawaiting : draft.awaiting with
    | some option =>
      rw [hawaiting] at hcongr
      cases hargument : Argument.ofText text with
      | plain value =>
        have hset := h.indifferent_set (h.awaiting option hawaiting) value
        exact hcongr hset fun other hs ha => by simp [step, hs, ha, hargument]
      | _ =>
        have hnone : Indifferent draft fun _ => none := .refused rfl fun _ => rfl
        exact hcongr hnone fun other hs ha => by simp [step, hs, ha, hargument]
    | none =>
      rw [hawaiting] at hcongr
      cases hargument : Argument.ofText text with
      | separator =>
        have hnext : Indifferent draft fun draft => some { draft with separated := true } :=
          .accepted rfl (fun _ => rfl) ⟨h.strict, h.denyDiagnostics, h.awaiting⟩ fun _ => rfl
        exact hcongr hnext fun other hs ha => by simp [step, hs, ha, hargument]
      | long name value =>
        have hname : value = none → ∀ flag : Flag, flag.name ≠ name := by
          rintro rfl flag rfl
          exact hflag flag (Argument.eq_of_ofText_eq_long_none hargument)
        exact hcongr (h.indifferent_long hname) fun other hs ha => by simp [step, hs, ha, hargument]
      | short letter rest =>
        have hshort := h.indifferent_short letter rest
        exact hcongr hshort fun other hs ha => by simp [step, hs, ha, hargument]
      | plain word =>
        exact hcongr (h.indifferent_word word) fun other hs ha => step_of_plain hs ha hargument

theorem separated_of_set {name : OptionName} {value : String}
    (h : draft.set name value = some next) : next.separated = draft.separated := by
  unfold set at h
  split at h <;> obtain ⟨options, -, hnext⟩ := Option.bind_eq_some_iff.1 h <;> cases hnext <;> rfl

theorem separated_of_operand (h : draft.operand text = some next) :
    next.separated = draft.separated := by
  unfold operand at h
  split at h <;> cases h
  rfl

theorem separated_of_long {name : String} {value : Option String}
    (h : draft.long name value = some next) : next.separated = draft.separated := by
  obtain ⟨option, -, h⟩ := Option.bind_eq_some_iff.1 h
  split at h
  · exact separated_of_set h
  · cases h
  · exact separated_of_set h
  · cases h
    rfl

theorem separated_of_short {letter : Char} {rest : List Char}
    (h : draft.short letter rest = some next) : next.separated = draft.separated := by
  unfold short at h
  split at h
  · split at h
    · cases h
      rfl
    · exact separated_of_set h
    · exact separated_of_set h
  · cases h

theorem separated_of_step (h : draft.step text = some next) :
    next.separated = (draft.separated || text == "--") := by
  unfold step at h
  cases hseparated : draft.separated with
  | true =>
    rw [hseparated, if_pos rfl] at h
    rw [separated_of_operand h, hseparated, Bool.true_or]
  | false =>
    rw [hseparated, if_neg Bool.false_ne_true] at h
    have hother (hargument : Argument.ofText text ≠ .separator)
        (hnext : next.separated = draft.separated) :
        next.separated = (false || text == "--") := by
      have hne : text ≠ "--" := mt Argument.ofText_eq_separator_iff.2 hargument
      rw [hnext, hseparated, Bool.false_or, beq_false_of_ne hne]
    split at h
    · rename_i hargument _
      exact hother (by rw [hargument]; simp) (separated_of_set h)
    · cases h
    · rename_i hargument _
      cases h
      rw [Argument.ofText_eq_separator_iff.1 hargument]
      rfl
    · rename_i hargument _
      exact hother (by rw [hargument]; simp) (separated_of_long h)
    · rename_i hargument _
      exact hother (by rw [hargument]; simp) (separated_of_short h)
    · rename_i hargument _
      apply hother (by rw [hargument]; simp)
      split at h
      · obtain ⟨level, -, hnext⟩ := Option.map_eq_some_iff.1 h
        rw [← hnext, hseparated]
      · exact separated_of_operand h

/-- Behind two dashes no argument is a flag, and before them every argument shows whether it is
one. -/
theorem Unflagged.indifferent_foldlM (h : draft.Unflagged) {arguments : List String}
    (harguments : draft.separated = true ∨
      ∀ text ∈ beforeDashes arguments, ∀ flag : Flag, text ≠ flag.text) :
    Indifferent draft fun draft => arguments.foldlM step draft := by
  induction arguments generalizing draft with
  | nil => exact .accepted rfl (fun _ => rfl) h fun _ => rfl
  | cons text rest ih =>
    have hcons (htext : draft.separated = true ∨ ∀ flag : Flag, text ≠ flag.text)
        (hrest : ∀ next : Draft, next.separated = (draft.separated || text == "--") →
          next.separated = true ∨ ∀ text ∈ beforeDashes rest, ∀ flag : Flag, text ≠ flag.text) :
        Indifferent draft fun draft => (text :: rest).foldlM step draft := by
      have hstep := h.indifferent_step htext
      refine (hstep.bind fun next hnext => ?_).congr List.foldlM_cons fun _ => List.foldlM_cons
      exact ih (hstep.unflagged next hnext) (hrest next (separated_of_step hnext))
    rcases harguments with hseparated | hflags
    · refine hcons (.inl hseparated) fun next hnext => .inl ?_
      rw [hnext, hseparated, Bool.true_or]
    · by_cases hdashes : text = "--"
      · subst hdashes
        refine hcons (.inr Flag.text_ne_dashes) fun next hnext => .inl ?_
        rw [hnext, beq_self_eq_true, Bool.or_true]
      · rw [beforeDashes_cons hdashes, List.forall_mem_cons] at hflags
        exact hcons (.inr hflags.1) fun _ _ => .inr hflags.2

/-- Two dashes leave their mark on a draft. -/
theorem separated_of_foldlM {arguments : List String} (hdashes : "--" ∉ arguments)
    (h : arguments.foldlM step draft = some next) : next.separated = draft.separated := by
  induction arguments generalizing draft with
  | nil =>
    cases h
    rfl
  | cons text rest ih =>
    rw [List.mem_cons, not_or] at hdashes
    rw [List.foldlM_cons] at h
    obtain ⟨middle, hmiddle, hrest⟩ := Option.bind_eq_some_iff.1 h
    rw [ih hdashes.2 hrest, separated_of_step hmiddle, beq_false_of_ne (Ne.symm hdashes.1),
      Bool.or_false]

/-- A flag is accepted after the name of the check, provided that no value is awaited. -/
theorem Unflagged.step_flag (h : draft.Unflagged) (hseparated : draft.separated = false) :
    (∀ flag : Flag, draft.step flag.text = none) ∨
      draft.level = .check ∧ ∀ flag : Flag, draft.step flag.text = some (draft.give flag) := by
  have hargument (flag : Flag) : Argument.ofText flag.text = .long flag.name none := by
    cases flag <;> rfl
  cases hawaiting : draft.awaiting with
  | some option =>
    left
    intro flag
    simp [step, hseparated, hawaiting, hargument]
  | none =>
    have hstep (flag : Flag) : draft.step flag.text = draft.long flag.name none := by
      simp [step, hseparated, hawaiting, hargument]
    simp only [hstep]
    cases hlevel : draft.level with
    | check =>
      refine .inr ⟨rfl, fun flag => ?_⟩
      -- Neither flag has been given, so that there is room for each; nothing is awaited either way.
      cases flag <;>
        simp [long, Flag.name, hlevel, Level.options, List.lookup_cons, OptionName.isFlag, set,
          Options.set, Slot.fill?, h.strict, h.denyDiagnostics, give, Options.give, hawaiting]
    | _ =>
      left
      intro flag
      cases flag <;> simp [long, Flag.name, hlevel, Level.options, List.lookup_cons]

/-- A flag makes a draft into one of an invocation with the flag. -/
theorem Unflagged.finish?_give (h : draft.Unflagged) (hlevel : draft.level = .check) (flag : Flag) :
    (draft.give flag).finish? = draft.finish?.map fun invocation => invocation.give flag := by
  have haction :
      (draft.give flag).action? = draft.action?.map fun _ => flag.action := by
    unfold action?
    rw [level_give, operands_give, hlevel]
    cases draft.operands with
    | nil => rfl
    | cons file rest =>
      cases rest with
      | nil => cases flag <;> simp [Flag.action, Options.give, h.strict, h.denyDiagnostics]
      | cons => rfl
  have hinner : (draft.give flag).inner.config = draft.inner.config ∧
      (draft.give flag).inner.logFormat = draft.inner.logFormat ∧
      (draft.give flag).inner.maxInputBytes = draft.inner.maxInputBytes := by
    cases flag <;> exact ⟨rfl, rfl, rfl⟩
  unfold finish?
  rw [awaiting_give, haction, operands_give, outer_give, hinner.1, hinner.2.1, hinner.2.2]
  split
  · rfl
  · cases draft.action? with
    | none => rfl
    | some action =>
      simp only [Option.map_some, bind, Option.bind_some, Option.map_bind, Function.comp_def]
      rfl

end Draft

/-- Command lines that differ in a flag only are refused alike, or denote invocations that differ in
this flag only. -/
theorem Invocation.ofArguments?_flag {before after : List String} (hdashes : "--" ∉ before)
    (hflags : ∀ text ∈ beforeDashes (before ++ after), ∀ flag : Flag, text ≠ flag.text) :
    (∀ flag : Flag, ofArguments? (before ++ flag.text :: after) = none) ∨
      ∃ invocation : Invocation, ∀ flag : Flag,
        ofArguments? (before ++ flag.text :: after) = some (invocation.give flag) := by
  have hkeeps : ∀ text ∈ before, (text != "--") = true := by
    intro text htext
    exact bne_iff_ne.2 fun heq => hdashes (heq ▸ htext)
  have hself : beforeDashes before = before := List.takeWhile_eq_self_iff.2 hkeeps
  rw [beforeDashes, List.takeWhile_append_of_pos hkeeps, ← beforeDashes,
    List.forall_mem_append] at hflags
  have hempty : Draft.Unflagged {} := ⟨rfl, rfl, fun name hname => by cases hname⟩
  have hfirst := hempty.indifferent_foldlM (.inr (hself.symm ▸ hflags.1))
  simp only [ofArguments?, List.foldlM_append, List.foldlM_cons]
  cases hdraft : before.foldlM Draft.step {} with
  | none => exact .inl fun flag => rfl
  | some draft =>
    have hunflagged := hfirst.unflagged draft hdraft
    have hseparated : draft.separated = false := Draft.separated_of_foldlM hdashes hdraft
    have hsecond := hunflagged.indifferent_foldlM (.inr hflags.2)
    rcases hunflagged.step_flag hseparated with hrefused | ⟨hlevel, haccepted⟩
    · exact .inl fun flag => by simp [hrefused]
    · simp only [Option.bind_eq_bind, Option.bind_some, haccepted, hsecond.give]
      cases hlast : after.foldlM Draft.step draft with
      | none => exact .inl fun flag => rfl
      | some last =>
        have hkept : last.level = .check := by
          rw [hsecond.level_eq last hlast (by rw [hlevel]; simp), hlevel]
        have hfinish := (hsecond.unflagged last hlast).finish?_give hkept
        simp only [Option.map_some, Option.bind_some, hfinish]
        cases last.finish? with
        | none => exact .inl fun flag => rfl
        | some invocation => exact .inr ⟨invocation, fun flag => rfl⟩

end Command

end CrateDocs
