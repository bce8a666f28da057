import SceneScript.Proofs.Script.Names
import SceneScript.Proofs.Session.History
import SceneScript.Proofs.Store.Words

/-!
# Resolved texts

Scripts bind identifiers only, so no word that begins with a digit is ever bound. A number
that is put into a text brings in such words alone, apart from the words for numbers without
digits, and it does not run into its neighbours. So a text in which the bound words have been
replaced has no bound word left.
-/

set_option autoImplicit false

namespace SceneScript

open SceneScript.Text

/-! ## Words of numbers -/

theorem Decimal.isWordStart_of_isNumberChar {c : Char} (ofNumber : isNumberChar c = true) :
    isWordStart c = false := by
  have code : c.toNat ≤ 57 := by
    simp only [isNumberChar, Char.isDigit, Bool.or_eq_true, Bool.and_eq_true, decide_eq_true_eq,
      UInt32.le_iff_toNat_le] at ofNumber
    obtain (digit | rfl) | rfl := ofNumber
    · exact digit.2
    · decide
    · decide
  rw [Bool.eq_false_iff]
  intro starts
  have first : 65 ≤ c.toNat := by
    have cases : isWordStart c =
        ((decide (c.val ≥ 65 ∧ c.val ≤ 90) || c.val ≥ 97 && c.val ≤ 122) || c = '_') := rfl
    simp only [cases, Bool.or_eq_true, Bool.and_eq_true, decide_eq_true_eq, ge_iff_le,
      UInt32.le_iff_toNat_le] at starts
    obtain (upper | lower) | rfl := starts
    · exact upper.1
    · exact Nat.le_trans (by decide) lower.1
    · decide
  omega

namespace Store

theorem expand_of_unbound {store : Store} {word : List Char}
    (unbound : store.get? (String.ofList word) = none) : store.expand word = word := by
  rw [expand, unbound]

theorem resolve_of_unbound {store : Store} {word : String} (solid : word.toList ≠ [])
    (all : ∀ c ∈ word.toList, isWordChar c = true) (unbound : store.get? word = none) :
    store.resolve word.toList = word.toList := by
  rw [store.resolve_word solid all, expand_of_unbound]
  rwa [String.ofList_toList]

namespace IsWellNamed

variable {store : Store} (named : store.IsWellNamed)
include named

/-- No word of a number written with digits is bound. -/
theorem resolve_digits {text : List Char} (digits : ∀ c ∈ text, Decimal.isNumberChar c = true) :
    store.resolve text = text := by
  induction text using words_induct with
  | nil => rfl
  | other c rest ends ih =>
      rw [store.resolve_cons ends, ih fun d member => digits d (List.mem_cons_of_mem c member)]
  | word word rest solid all ends ih =>
      have unbound : store.get? (String.ofList word) = none := by
        rw [← Option.not_isSome_iff_eq_none]
        intro bound
        have isName := named _ bound
        rw [String.toList_ofList] at isName
        cases word with
        | nil => exact solid rfl
        | cons c word =>
            have starts := Decimal.isWordStart_of_isNumberChar
              (digits c (List.mem_append_left rest List.mem_cons_self))
            rw [isName.1] at starts
            cases starts
      rw [store.resolve_append (.inr ends), store.resolve_word solid all, expand_of_unbound unbound,
        ih fun d member => digits d (List.mem_append_right word member)]

variable (noNaN : store.get? "NaN" = none) (noInfinity : store.get? "Infinity" = none)
include noNaN noInfinity

theorem resolve_write (value : Float) :
    store.resolve (Decimal.spliced.write value).toList =
      (Decimal.spliced.write value).toList := by
  obtain word | ⟨negative, word⟩ | digits := Decimal.write_cases Decimal.spliced value
  · rw [word]
    exact resolve_of_unbound (by decide) (List.all_eq_true.mp (by decide)) noNaN
  · have infinity : store.resolve "Infinity".toList = "Infinity".toList :=
      resolve_of_unbound (by decide) (List.all_eq_true.mp (by decide)) noInfinity
    rw [word, String.toList_ofList]
    cases negative with
    | false => exact infinity
    | true => exact (store.resolve_cons (by decide) _).trans (congrArg ('-' :: ·) infinity)
  · exact named.resolve_digits digits

theorem resolve_expand {word : List Char} (solid : word ≠ [])
    (all : ∀ c ∈ word, isWordChar c = true) :
    store.resolve (store.expand word) = store.expand word := by
  cases bound : store.get? (String.ofList word) with
  | none => rw [expand_of_unbound bound, store.resolve_word solid all, expand_of_unbound bound]
  | some value =>
      have replaced : store.expand word = (Decimal.spliced.write value).toList := by
        rw [expand, bound]
      rw [replaced]
      exact named.resolve_write noNaN noInfinity value

theorem resolve_resolve (text : List Char) :
    store.resolve (store.resolve text) = store.resolve text := by
  induction text using words_induct with
  | nil => rfl
  | other c rest ends ih => rw [store.resolve_cons ends, store.resolve_cons ends, ih]
  | word word rest solid all ends ih =>
      -- What was put in for the word ends where the word ended.
      rw [store.resolve_append (.inr ends), store.resolve_word solid all,
        store.resolve_append (.inr (store.any_head?_resolve ends)),
        named.resolve_expand noNaN noInfinity solid all, ih]

end IsWellNamed

end Store

/-! ## Stores of sessions -/

namespace Session

/-- Commands are run only if they have been read from a script. -/
def Operation.RunsScripts : Operation → Prop
  | .execute commands =>
    ∀ command ∈ commands, ∃ source, command ∈ (Program.ofText source).commands
  | _ => True

theorem Executes.isWellNamed {session final : Session} {commands : List Command}
    (executed : session.Executes commands final)
    (ofCommands : ∀ command ∈ commands, command.IsWellNamed)
    (named : session.store.IsWellNamed) : final.store.IsWellNamed := by
  obtain ⟨reported, after, runs, rfl⟩ := executes_iff.mp executed
  exact ((Store.naming session.config.defaults).ends_of_runsAll runs ofCommands named).1

theorem Operation.Performs.isWellNamed {operation : Operation} {before after : Session}
    (performed : operation.Performs before after) (ofScripts : operation.RunsScripts)
    (named : before.store.IsWellNamed) : after.store.IsWellNamed := by
  have read (source : List Char) :
      ∀ command ∈ (Program.ofText source).commands, command.IsWellNamed :=
    (Program.naming.accepts_ofText source).1
  cases operation with
  | load source =>
      obtain ⟨ran, executed, rfl⟩ := exists_executes_of_loads performed
      exact executed.isWellNamed (read source.toList) Store.IsWellNamed.empty
  | execute commands =>
      refine Executes.isWellNamed performed (fun command member => ?_) named
      obtain ⟨source, fromSource⟩ := ofScripts command member
      exact read source command fromSource
  | tick input =>
      cases performed
      rw [tick_eq]
      exact named
  | select name =>
      cases performed
      unfold Session.select
      split <;> exact named
  | selectAt x y =>
      cases performed
      rw [selectAt_eq]
      exact named
  | nudge direction =>
      cases performed
      unfold Session.nudge
      rw [modifySelected_eq]
      exact named
  | _ =>
      cases performed
      exact named

/-- Whatever scripts a session has loaded and run, its variables have identifiers as names.
If moreover no variable has the name of a number without digits, then replacing the bound
words of a text a second time changes nothing. -/
theorem resolved_names_are_stable {config : Config} {history : List Operation} {session : Session}
    (performed : PerformsAll history (new config) session)
    (ofScripts : ∀ operation ∈ history, operation.RunsScripts) :
    (∀ name, (session.store.get? name).isSome → IsName name.toList) ∧
    (session.store.get? "NaN" = none → session.store.get? "Infinity" = none → ∀ text,
      session.store.substitute (session.store.substitute text) = session.store.substitute text) := by
  have named : session.store.IsWellNamed := by
    refine performed.keeps (fun session => session.store.IsWellNamed) ?_ Store.IsWellNamed.empty
    exact fun operation member before after named performs =>
      performs.isWellNamed (ofScripts operation member) named
  refine ⟨named, fun noNaN noInfinity text => ?_⟩
  rw [← String.toList_inj]
  simp only [Store.toList_substitute]
  exact named.resolve_resolve noNaN noInfinity text.toList

/-- A loop assigns in its header, and a script is run behind the one that was loaded. -/
theorem resolved_names_are_stable_of_infinite_value :
    let source := "for(i = 0; i < 2; i = i + (step = 1))\x7bx = 1 / (1 - i);\x7d"
    let commands := (Program.ofText "y = 0 - i / 8;".toList).commands
    ∃ session, PerformsAll [.load source, .execute commands] (new {}) session ∧
      (session.store.get? "step").isSome = true ∧
      session.store.substitute "a-x y" = "a-Infinity -0.25" ∧
      (∀ name, (session.store.get? name).isSome → IsName name.toList) ∧
      ∀ text, session.store.substitute (session.store.substitute text) =
        session.store.substitute text := by
  intro source commands
  have ran : (((new {}).load 2 source).bind (execute 0 commands)).any (fun session =>
      (session.store.get? "step").isSome && session.store.substitute "a-x y" = "a-Infinity -0.25" &&
        (session.store.get? "NaN").isNone && (session.store.get? "Infinity").isNone) = true := by
    decide +kernel
  obtain ⟨session, finished, facts⟩ := (Option.any_eq_true _ _).mp ran
  obtain ⟨loaded, loads, executes⟩ := Option.bind_eq_some_iff.mp finished
  simp only [Bool.and_eq_true, decide_eq_true_eq, Option.isNone_iff_eq_none] at facts
  obtain ⟨⟨⟨bound, resolved⟩, noNaN⟩, noInfinity⟩ := facts
  have performed : PerformsAll [.load source, .execute commands] (new {}) session :=
    .cons (show (Operation.load source).Performs _ loaded from ⟨2, loads⟩)
      (.cons (show (Operation.execute commands).Performs _ session from ⟨0, executes⟩) (.nil _))
  have ofScripts : ∀ operation ∈ ([.load source, .execute commands] : List Operation),
      operation.RunsScripts := by
    simp only [List.forall_mem_cons, List.not_mem_nil, false_implies, implies_true, and_true]
    exact ⟨trivial, fun command member => ⟨_, member⟩⟩
  obtain ⟨named, stable⟩ := resolved_names_are_stable performed ofScripts
  exact ⟨session, performed, bound, resolved, named, stable noNaN noInfinity⟩

end Session

end SceneScript
