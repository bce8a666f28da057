import Mathlib.Data.List.SplitBy
import SceneScript.Proofs.Offset.Place
import SceneScript.Proofs.Scene.Encounters
import SceneScript.Proofs.Script.Names

/-!
# Texts of a script on one line

A script is read from many lines, but nothing of what is left of it is longer than one:
the names, shapes and colors of objects, and the wording of every fault. Statements have no
line feed, names in clauses are identifiers, and numbers that become part of a name are
written without one. The only other source is the color of new objects.
-/

set_option autoImplicit false

namespace SceneScript

open SceneScript.Text SceneScript.Script

/-! ## Faults -/

@[simp] theorem BinaryOp.isOneLine_symbol (op : BinaryOp) : IsOneLine op.symbol := by
  cases op <;> decide

@[simp] theorem Value.Kind.isOneLine_describe (kind : Value.Kind) : IsOneLine kind.describe := by
  cases kind <;> decide

@[simp] theorem Value.isOneLine_boolText (value : Bool) : IsOneLine (Value.boolText value) := by
  cases value <;> decide

@[simp] theorem Method.isOneLine_word (method : Method) : IsOneLine method.word := by
  cases method <;> decide

@[simp] theorem Expected.isOneLine_describe (expected : Expected) :
    IsOneLine expected.describe := by
  cases expected <;> decide

@[simp] theorem Fault.Kind.isOneLine_word (kind : Fault.Kind) : IsOneLine kind.word := by
  cases kind <;> decide

theorem Fault.isOneLine_text_iff {fault : Fault} : IsOneLine fault.text ↔ IsOneLine fault.message := by
  unfold text
  simp only [isOneLine_append, Kind.isOneLine_word, and_true, and_iff_right_iff_imp]
  exact fun _ => by decide

theorem Script.StatementFault.isOneLine_message {fault : StatementFault}
    (quoted : ∀ text ∈ fault.text?, IsOneLine text) : IsOneLine fault.message := by
  cases fault with
  | loopTooDeep =>
      unfold message
      simp only [isOneLine_append, isOneLine_repr, and_true]
      decide +kernel
  | wrongArity method given body =>
      have ofBody := quoted body rfl
      unfold message
      simp only [isOneLine_append, isOneLine_repr, Method.isOneLine_word, ofBody, and_true]
      decide +kernel
  | _ =>
      have ofText := quoted _ rfl
      unfold message
      simp only [isOneLine_append, ofText, and_true]
      decide +kernel

theorem Lexeme.IsWellNamed.isOneLine_describe {lexeme : Lexeme} (named : lexeme.IsWellNamed) :
    IsOneLine lexeme.describe := by
  cases lexeme with
  | name text =>
      have ofName : IsOneLine text := IsName.isOneLine named
      unfold describe
      simp only [isOneLine_append, ofName, and_true]
      decide +kernel
  | number value =>
      unfold describe
      simp only [isOneLine_append, isOneLine_write_exact, and_true]
      decide +kernel
  | operator op =>
      unfold describe
      simp only [isOneLine_append, BinaryOp.isOneLine_symbol, and_true]
      decide +kernel
  | _ => decide +kernel

theorem leads_leadingByte (c : Char) : Offset.Leads (leadingByte c) c := by
  obtain ⟨byte, more, encoded, leads⟩ := Offset.exists_encode_eq_cons c
  have same : leadingByte c = byte := by
    unfold Offset.encode at encoded
    unfold leadingByte
    cases bytes : String.utf8EncodeChar c with
    | nil =>
        rw [bytes] at encoded
        cases encoded
    | cons first rest =>
        rw [bytes, List.map_cons, List.cons.injEq] at encoded
        rw [← encoded.1]
        exact Char.ofNat_toNat (Char.ofUInt8 first)
  exact same ▸ leads

theorem ClauseFault.Reason.IsWellFormed.isOneLine_message {reason : ClauseFault.Reason}
    (wellFormed : reason.IsWellFormed) : IsOneLine reason.message := by
  cases reason with
  | strayCharacter character =>
      have other : leadingByte character ≠ '\n' := by
        intro same
        rw [(leads_leadingByte character).eq_iff (by decide)] at same
        have solid : isAsciiBlank character = false := wellFormed
        rw [same] at solid
        exact absurd solid (by decide)
      have ofByte : IsOneLine (String.singleton (leadingByte character)) := by
        simpa [IsOneLine] using other.symm
      unfold message
      simp only [isOneLine_append, ofByte, and_true]
      decide +kernel
  | malformedNumber text =>
      have ofText : IsOneLine text := fun member => absurd (wellFormed _ member) (by decide)
      unfold message
      simp only [isOneLine_append, ofText, and_true]
      decide +kernel
  | unexpected expected found =>
      cases found with
      | none =>
          unfold message
          simp only [isOneLine_append, Expected.isOneLine_describe, Option.map_none,
            Option.getD_none, and_true]
          decide +kernel
      | some lexeme =>
          have ofLexeme := (wellFormed lexeme rfl).isOneLine_describe
          unfold message
          simp only [isOneLine_append, Expected.isOneLine_describe, Option.map_some,
            Option.getD_some, ofLexeme, and_true]
          decide +kernel
  | _ => decide +kernel

/-- A clause whose text and whose names are on one line. -/
structure Clause.IsOneLine (clause : Clause) : Prop where
  source : Text.IsOneLine clause.source
  names : clause.IsWellNamed

theorem Clause.isOneLine_ofText {text : List Char} (noLineFeed : '\n' ∉ text) :
    (Clause.ofText text).IsOneLine :=
  ⟨isOneLine_ofList.mpr fun inside => noLineFeed ((trim_within text).subset inside),
    Clause.ofText_isWellNamed text⟩

theorem Expr.IsWellNamed.isOneLine_of_fault {tree : Expr} (named : tree.IsWellNamed)
    {store after : Store} {fault : EvalFault} (failed : tree.eval store = (.error fault, after)) :
    IsOneLine fault.message := by
  induction named generalizing store after with
  | number value => cases failed
  | @var name column ofName =>
      simp only [eval] at failed
      split at failed
      · cases failed
      · cases failed
        unfold EvalFault.message
        simp only [isOneLine_append, isOneLine_repr, ofName.isOneLine, and_true,
          true_and]
        decide +kernel
  | neg _ ih =>
      simp only [eval] at failed
      split at failed
      · cases failed
      · cases failed
        decide +kernel
      · rename_i failedInside
        cases failed
        exact ih failedInside
  | binary op column _ _ leftIH rightIH =>
      simp only [eval] at failed
      split at failed
      · rename_i failedLeft
        cases failed
        exact leftIH failedLeft
      split at failed
      · rename_i failedRight
        cases failed
        exact rightIH failedRight
      · obtain ⟨combined, -⟩ := Prod.mk.inj failed
        unfold BinaryOp.combine at combined
        split at combined
        · cases combined
        · cases combined
          unfold EvalFault.message
          simp only [isOneLine_append, isOneLine_repr,
            BinaryOp.isOneLine_symbol, Value.Kind.isOneLine_describe, and_true, true_and]
          decide +kernel
  | @assign target value ofTarget _ ih =>
      simp only [eval] at failed
      split at failed
      · rename_i failedInside
        cases failed
        exact ih failedInside
      · unfold Store.assign at failed
        split at failed
        · cases failed
        · cases failed
          unfold EvalFault.message
          simp only [isOneLine_append, Value.Kind.isOneLine_describe,
            ofTarget.isOneLine, and_true]
          decide +kernel

theorem Clause.IsOneLine.isOneLine_of_fault {clause : Clause} (oneLine : clause.IsOneLine)
    {store after : Store} {fault : EvalFault}
    (failed : clause.eval store = (.error fault, after)) : Text.IsOneLine fault.message := by
  obtain ⟨ofSource, named⟩ := oneLine
  unfold eval at failed
  unfold IsWellNamed at named
  split at failed
  · rename_i tree read
    rw [read] at named
    exact Expr.IsWellNamed.isOneLine_of_fault named failed
  · rename_i reason read
    rw [read] at named
    cases failed
    have ofReason := ClauseFault.Reason.IsWellFormed.isOneLine_message named
    unfold EvalFault.message ClauseFault.message
    simp only [isOneLine_append, isOneLine_repr, ofSource,
      ofReason, and_true, true_and]
    decide +kernel

/-! ## Scenes -/

structure Object.IsOneLine (object : Object) : Prop where
  shape : Text.IsOneLine object.shape.token
  color : Text.IsOneLine object.color

def Scene.IsOneLine (scene : Scene) : Prop :=
  ∀ entry ∈ scene.toList, Text.IsOneLine entry.1 ∧ entry.2.IsOneLine

theorem isOneLine_foldl_colorAfter {color : String} (oneLine : IsOneLine color)
    (hits : List Bool) : IsOneLine (hits.foldl colorAfter color) := by
  induction hits generalizing color with
  | nil => exact oneLine
  | cons hit rest ih =>
      refine ih ?_
      unfold colorAfter
      split
      · decide
      split
      · decide
      · exact oneLine

namespace Scene.IsOneLine

theorem empty : Scene.empty.IsOneLine :=
  List.forall_mem_nil _

variable {scene : Scene} (oneLine : scene.IsOneLine)
include oneLine

/-- A change at a position keeps the name that stands there. -/
theorem modifyAt (position : Nat) {change : Object → Object}
    (keeps : ∀ object : Object, object.IsOneLine → (change object).IsOneLine)
    (index : Std.HashMap String Nat) :
    (Scene.mk (scene.entries.modify position fun entry => (entry.1, change entry.2))
      index).IsOneLine := by
  intro entry member
  obtain ⟨place, found⟩ := List.mem_iff_getElem?.mp member
  rw [toList, Array.toList_modify, List.getElem?_modify, Option.map_eq_map,
    Option.map_eq_some_iff] at found
  obtain ⟨old, isOld, rfl⟩ := found
  have ofOld := oneLine old (List.mem_of_getElem? isOld)
  split
  · exact ⟨ofOld.1, keeps old.2 ofOld.2⟩
  · exact ofOld

theorem modify {change : Object → Object}
    (keeps : ∀ object : Object, object.IsOneLine → (change object).IsOneLine) (name : String) :
    (scene.modify name change).IsOneLine := by
  unfold Scene.modify
  split
  · exact oneLine.modifyAt _ keeps scene.index
  · exact oneLine

theorem insert {name : String} (ofName : Text.IsOneLine name) {object : Object}
    (ofObject : object.IsOneLine) : (scene.insert name object).IsOneLine := by
  unfold Scene.insert
  split
  · exact oneLine.modifyAt _ (fun _ _ => ofObject) scene.index
  · intro entry member
    rw [toList, Array.toList_push, List.mem_append, List.mem_singleton] at member
    obtain old | rfl := member
    · exact oneLine entry old
    · exact ⟨ofName, ofObject⟩

/-- A collision pass leaves a color, or paints one of two fixed colors over it. -/
theorem collide : scene.collide.IsOneLine := by
  intro entry member
  obtain ⟨position, found⟩ := List.mem_iff_getElem?.mp member
  have passed : (collisionPass scene.toList)[position]? = some entry := by
    simpa [Scene.collide, toList] using found
  rw [getElem?_collisionPass, Option.map_eq_some_iff] at passed
  obtain ⟨old, isOld, rfl⟩ := passed
  obtain ⟨ofName, ofObject⟩ := oneLine old (List.mem_of_getElem? isOld)
  exact ⟨ofName, ofObject.shape, isOneLine_foldl_colorAfter ofObject.color _⟩

end Scene.IsOneLine

theorem Store.isOneLine_substitute (store : Store) {text : String} (oneLine : IsOneLine text) :
    IsOneLine (store.substitute text) := by
  rw [substitute, isOneLine_ofList, List.mem_flatMap]
  intro ⟨segment, isSegment, inside⟩
  have within : '\n' ∉ segment := by
    intro member
    have inText := List.mem_flatten_of_mem isSegment member
    rw [segments, List.flatten_splitBy] at inText
    exact oneLine inText
  unfold expandSegment expand at inside
  split at inside
  · split at inside
    · exact isOneLine_write_spliced _ inside
    · exact within inside
  · exact within inside

/-! ## Commands -/

/-- Commands with texts on one line. The names in calls that change an object are never shown. -/
inductive Command.IsOneLine : Command → Prop
  | create {shape : Shape} {name : String} (ofShape : Text.IsOneLine shape.token)
      (ofName : Text.IsOneLine name) : IsOneLine (.create shape name)
  | color (name : String) {color : String} (ofColor : Text.IsOneLine color) :
      IsOneLine (.color name color)
  | move (name : String) {x y : String} (ofX : Text.IsOneLine x) (ofY : Text.IsOneLine y) :
      IsOneLine (.move name x y)
  | collidable (name value : String) : IsOneLine (.collidable name value)
  | assign {target : String} {value : Clause} (ofTarget : IsName target.toList)
      (ofValue : value.IsOneLine) : IsOneLine (.assign target value)
  | loop {init condition increment : Clause} {body : List Command} (ofInit : init.IsOneLine)
      (ofCondition : condition.IsOneLine) (ofIncrement : increment.IsOneLine)
      (ofBody : ∀ command ∈ body, IsOneLine command) :
      IsOneLine (.loop init condition increment body)

theorem Command.isOneLine_of_callCommand? {method : Method} {arguments : List String}
    {command : Command} (oneLine : ∀ argument ∈ arguments, Text.IsOneLine argument)
    (known : callCommand? method arguments = some command) : command.IsOneLine := by
  unfold callCommand? at known
  split at known
  · rename_i shape name
    cases known
    refine .create ?_ (oneLine name (by simp))
    rw [Shape.token_ofToken]
    exact oneLine shape (by simp)
  · rename_i name color
    cases known
    exact .color name (oneLine color (by simp))
  · rename_i name x y
    cases known
    exact .move name (oneLine x (by simp)) (oneLine y (by simp))
  · cases known
    exact .collidable _ _
  · cases known

/-- Every program that is read has its texts and the wording of its faults on one line. -/
def Program.lines : ReadInvariant where
  allows := Command.IsOneLine
  reports fault := Text.IsOneLine fault.message
  reports_cut fault := by cases fault <;> decide +kernel
  reports_statement quoted := StatementFault.isOneLine_message quoted
  allows_call oneLine known := Command.isOneLine_of_callCommand? oneLine known
  allows_assign ofTarget ofValue := .assign ofTarget (Clause.isOneLine_ofText ofValue)
  allows_loop ofInit ofCondition ofIncrement ofBody :=
    .loop (Clause.isOneLine_ofText ofInit) (Clause.isOneLine_ofText ofCondition)
      (Clause.isOneLine_ofText ofIncrement) ofBody

/-! ## Runs -/

namespace World

variable {world : World}

theorem isOneLine_modifyObject (oneLine : world.scene.IsOneLine) (name : String)
    {change : Object → Object}
    (keeps : ∀ object : Object, object.IsOneLine → (change object).IsOneLine) :
    (world.modifyObject name change).scene.IsOneLine :=
  oneLine.modify keeps (world.store.substitute name)

theorem isOneLine_of_readCoordinate {text : String} (oneLine : Text.IsOneLine text)
    {fault : EvalFault} (failed : readCoordinate text = .error fault) :
    Text.IsOneLine fault.message := by
  unfold readCoordinate at failed
  simp only at failed
  split at failed
  · cases failed
    unfold EvalFault.message
    simp only [isOneLine_append, oneLine, and_true]
    decide +kernel
  · cases failed

theorem isOneLine_move (oneLine : world.scene.IsOneLine) (name : String) {x y : String}
    (ofX : Text.IsOneLine x) (ofY : Text.IsOneLine y) :
    (world.move name x y).1.scene.IsOneLine ∧
      ∀ fault ∈ (world.move name x y).2, Text.IsOneLine fault.message := by
  unfold move
  split
  · split
    · rename_i fault failed
      exact ⟨oneLine, fun _ same => Option.some.inj same ▸ isOneLine_of_readCoordinate ofX failed⟩
    split
    · rename_i fault failed
      exact ⟨oneLine, fun _ same => Option.some.inj same ▸ isOneLine_of_readCoordinate ofY failed⟩
    · refine ⟨isOneLine_modifyObject oneLine name ?_, fun _ none => nomatch none⟩
      exact fun _ ofObject => ⟨ofObject.shape, ofObject.color⟩
  · exact ⟨oneLine, fun _ none => nomatch none⟩

theorem isOneLine_assign (oneLine : world.scene.IsOneLine) {target : String} {value : Clause}
    (ofTarget : IsName target.toList) (ofValue : value.IsOneLine) :
    (world.assign target value).1.scene.IsOneLine ∧
      ∀ fault ∈ (world.assign target value).2, Text.IsOneLine fault.message := by
  unfold assign eval
  cases evaluated : value.eval world.store with
  | mk outcome store =>
      match outcome with
      | .error fault =>
          exact ⟨oneLine, fun _ same => Option.some.inj same ▸ ofValue.isOneLine_of_fault evaluated⟩
      | .ok (.number _) => exact ⟨oneLine, fun _ none => nomatch none⟩
      | .ok (.bool _) =>
          refine ⟨oneLine, fun _ same => Option.some.inj same ▸ ?_⟩
          unfold EvalFault.message
          simp only [isOneLine_append, Value.Kind.isOneLine_describe, ofTarget.isOneLine, and_true]
          decide +kernel

end World

theorem Command.IsOneLine.run_of_simple {defaults : ObjectDefaults}
    (ofDefault : Text.IsOneLine defaults.color) {command : Command}
    (ofCommand : command.IsOneLine) (simple : command.isLoop = false) {before after : World}
    {bound : Nat} {fault : Option EvalFault} (oneLine : before.scene.IsOneLine)
    (ran : command.run defaults bound before = some (after, fault)) :
    after.scene.IsOneLine ∧ ∀ reason ∈ fault, Text.IsOneLine reason.message := by
  cases ofCommand with
  | create ofShape ofName =>
      cases Option.some.inj ran
      exact ⟨oneLine.insert (before.store.isOneLine_substitute ofName) ⟨ofShape, ofDefault⟩,
        fun _ none => nomatch none⟩
  | color name ofColor =>
      cases Option.some.inj ran
      refine ⟨World.isOneLine_modifyObject oneLine name ?_, fun _ none => nomatch none⟩
      exact fun _ ofObject => ⟨ofObject.shape, ofColor⟩
  | move name ofX ofY =>
      have moved := World.isOneLine_move oneLine name ofX ofY
      rw [Option.some.inj ran] at moved
      exact moved
  | collidable name value =>
      cases Option.some.inj ran
      refine ⟨World.isOneLine_modifyObject oneLine name ?_, fun _ none => nomatch none⟩
      exact fun _ ofObject => ⟨ofObject.shape, ofObject.color⟩
  | assign ofTarget ofValue =>
      have assigned := World.isOneLine_assign oneLine ofTarget ofValue
      rw [Option.some.inj ran] at assigned
      exact assigned
  | loop => cases simple

/-- Every run of such commands puts texts on one line in the scene and into the diagnostics. -/
def Scene.lines {defaults : ObjectDefaults} (ofDefault : Text.IsOneLine defaults.color) :
    RunInvariant defaults where
  holds stage := stage.scene.IsOneLine
  reports fault := Text.IsOneLine fault.message
  allowsClause := Clause.IsOneLine
  allows := Command.IsOneLine
  holds_eval _ oneLine evaluated := by
    cases evaluated
    exact oneLine
  reports_eval ofClause failed :=
    ofClause.isOneLine_of_fault (Prod.ext (Prod.mk.inj failed).1 rfl)
  holds_simple simple ofCommand oneLine ran := ofCommand.run_of_simple ofDefault simple oneLine ran
  allows_loop ofLoop := by
    cases ofLoop with
    | loop ofInit ofCondition ofIncrement ofBody =>
        exact ⟨ofInit, ofCondition, ofIncrement, ofBody⟩

end SceneScript
