import SceneScript.Proofs.Script.Reading

/-!
# Rendered programs

Commands are rendered as statements, one behind another and each on a line of its
own; the body of a loop stands on lines of its own between the braces. Reading the
text of a program gives back its commands, without faults. What stands between the
braces of a loop is brought to normal form twice, as part of the script and as a
block; the second time changes nothing.
-/

set_option autoImplicit false

namespace SceneScript

open SceneScript.Text SceneScript.Script

/-! ## Rendering -/

/-- A call of a method. -/
def Method.call (method : Method) (arguments : List String) : List Char :=
  objectWord ++ (method.word.toList ++ '(' :: (joinArguments arguments ++ [')']))

mutual

/-- The statement of a command. -/
def Command.render : Command → List Char
  | .create shape name => Method.create.call [shape.token, name] ++ [';']
  | .color name token => Method.color.call [name, token] ++ [';']
  | .move name x y => Method.move.call [name, x, y] ++ [';']
  | .collidable name value => Method.collidable.call [name, value] ++ [';']
  | .assign target value => target.toList ++ ' ' :: '=' :: ' ' :: value.source.toList ++ [';']
  | .loop init condition increment body =>
    joinLoop (joinHeader init.source.toList condition.source.toList increment.source.toList)
      ('\n' :: Command.renderAll body)

/-- The statements of commands, each with a line end behind it. -/
def Command.renderAll : List Command → List Char
  | [] => []
  | command :: rest => command.render ++ '\n' :: Command.renderAll rest

end

/-- A text that can stand between the commas of a call. -/
structure IsArgument (text : String) : Prop where
  trimmed : IsTrimmed text.toList
  plain : IsPlain text.toList
  noDelimiter : ∀ c ∈ [',', '(', ')', ';', '{', '}'], c ∉ text.toList

/-- A clause that was read from a text that can stand in front of a semicolon. -/
structure Clause.IsRenderable (clause : Clause) : Prop where
  read : Clause.ofText clause.source.toList = clause
  solid : clause.source.toList ≠ []
  trimmed : IsTrimmed clause.source.toList
  plain : IsPlain clause.source.toList
  noDelimiter : ∀ c ∈ [';', '{', '}'], c ∉ clause.source.toList

theorem Clause.isRenderable_ofText {text : List Char} (solid : text ≠ []) (trimmed : IsTrimmed text)
    (plain : IsPlain text) (noDelimiter : ∀ c ∈ [';', '{', '}'], c ∉ text) :
    (Clause.ofText text).IsRenderable := by
  have source : (Clause.ofText text).source.toList = text := by
    rw [Clause.ofText, trim_eq_self_iff.mpr trimmed, String.toList_ofList]
  exact ⟨by rw [source], by rwa [source], by rwa [source], by rwa [source], by rwa [source]⟩

/-- A clause that can stand in the header of a loop. -/
structure Clause.IsHeaderPart (clause : Clause) : Prop where
  renderable : clause.IsRenderable
  balanced : IsBalanced '(' ')' clause.source.toList

/-- A command whose texts can be rendered and whose loops nest at most `room`
deep. -/
inductive Command.IsRenderable : Nat → Command → Prop where
  | create {room : Nat} {shape : Shape} {name : String} :
      Shape.ofToken shape.token = shape → IsArgument shape.token → IsArgument name →
      IsRenderable room (.create shape name)
  | color {room : Nat} {name token : String} :
      IsArgument name → IsArgument token → IsRenderable room (.color name token)
  | move {room : Nat} {name x y : String} :
      IsArgument name → IsArgument x → IsArgument y → IsRenderable room (.move name x y)
  | collidable {room : Nat} {name value : String} :
      IsArgument name → IsArgument value → IsRenderable room (.collidable name value)
  | assign {room : Nat} {target : String} {value : Clause} :
      IsName target.toList → target.toList ≠ loopKeyword → value.IsRenderable →
      IsRenderable room (.assign target value)
  | loop {room : Nat} {init condition increment : Clause} {body : List Command} :
      init.IsHeaderPart → condition.IsHeaderPart → increment.IsHeaderPart →
      (∀ command ∈ body, IsRenderable room command) →
      IsRenderable (room + 1) (.loop init condition increment body)

namespace Script

/-! ## Statements that are read back -/

/-- The text is cut as one statement, and that statement is read as the command. -/
structure Restores (room : Nat) (text : List Char) (command : Command) : Prop where
  ends : CutsToEnd text
  read : readBlockWith (bodyReader room) text = ⟨[command], []⟩
  balanced : IsBalanced '{' '}' (normalize text)

variable {room : Nat}

theorem Restores.of_cut {text : List Char} {piece : Piece} {command : Command}
    (cuts : cut (normalize text) = ⟨[piece], [], none⟩)
    (read : readStatementWith (bodyReader room) (trim piece.text) = ⟨.ok command, []⟩)
    (balanced : IsBalanced '{' '}' (normalize text)) : Restores room text command where
  ends := ⟨by rw [cuts], by rw [cuts]⟩
  read := by
    simp only [readBlockWith, cuts, Cut.statements, List.map_cons, List.map_nil, read]
    rfl
  balanced := balanced

theorem Restores.of_simple {body : List Char} {command : Command}
    (normal : IsNormal (body ++ [';'])) (simple : startsLoop (body ++ [';']) = false)
    (noDelimiter : ∀ c ∈ [';', '{', '}'], c ∉ body)
    (read : readSimple (body ++ [';']) = .ok command) :
    Restores room (body ++ [';']) command := by
  have alone : trim (body ++ [';']) = body ++ [';'] := trim_eq_self_iff.mpr normal.trimmed
  apply Restores.of_cut
  · rw [normal.normalize_eq, cut_simple normal.trimmed simple (noDelimiter ';' (by decide))]
  · simp only [readStatementWith, Piece.text, alone, simple, read]
    rfl
  · rw [normal.normalize_eq]
    apply isBalanced_of_not_mem
    · simpa using noDelimiter '{' (by decide)
    · simpa using noDelimiter '}' (by decide)

/-! ## Calls -/

theorem isPlain_joinArguments {arguments : List String}
    (each : ∀ argument ∈ arguments, IsPlain argument.toList) :
    IsPlain (joinArguments arguments) := by
  induction arguments with
  | nil => exact isPlain_nil
  | cons argument rest ih =>
      have argumentPlain := each argument List.mem_cons_self
      have restPlain := ih fun other member => each other (List.mem_cons_of_mem _ member)
      cases rest with
      | nil => simpa [joinArguments] using argumentPlain
      | cons next rest =>
          have joined : joinArguments (argument :: next :: rest) =
              argument.toList ++ ',' :: ' ' :: joinArguments (next :: rest) := by
            simp [joinArguments, List.intercalate_cons_cons]
          rw [joined]
          exact argumentPlain.append_cons (restPlain.cons (by decide)) (by decide)

section
variable {method : Method} {arguments : List String}

theorem isPlain_call (each : ∀ argument ∈ arguments, IsPlain argument.toList) :
    IsPlain (method.call arguments) := by
  have inner := (isPlain_joinArguments each).concat (c := ')') (by decide)
  have called := (isPlain_of_word (isWordChar_of_mem_word method)).append_cons inner (c := '(')
    (by decide)
  exact (isPlain_of_word isWordChar_of_mem_object).append_cons called (c := '.') (by decide)

theorem isTrimmed_call : IsTrimmed (method.call arguments) := by
  have ends : method.call arguments =
      'o' :: ('b' :: 'j' :: 'e' :: 'c' :: 't' :: '.' :: (method.word.toList ++
        '(' :: joinArguments arguments) ++ [')']) := by
    simp [Method.call, objectWord]
  exact isTrimmed_of_ends ends (by decide) (by decide)

theorem not_mem_call {c : Char} (ends : isWordChar c = false)
    (other : c ∉ ['.', '(', ')', ',', ' '])
    (notInside : ∀ argument ∈ arguments, c ∉ argument.toList) : c ∉ method.call arguments := by
  have notInWord := not_mem_word (isWordChar_of_mem_word method) ends
  have notObject : c ∉ ['o', 'b', 'j', 'e', 'c', 't'] := not_mem_word isWordChar_of_mem_object ends
  have notJoined : c ∉ joinArguments arguments :=
    not_mem_joinArguments (fun member => other (by simp_all)) notInside
  simp_all [Method.call, objectWord]

theorem restores_call {command : Command} (known : callCommand? method arguments = some command)
    (each : ∀ argument ∈ arguments, IsArgument argument) :
    Restores room (method.call arguments ++ [';']) command := by
  have plain : IsPlain (method.call arguments) :=
    isPlain_call fun argument member => (each argument member).plain
  have ends : method.call arguments ++ [';'] = 'o' :: ((method.call arguments).tail ++ [';']) := rfl
  apply Restores.of_simple
  · exact ⟨plain.concat (by decide), isTrimmed_of_ends ends (by decide) (by decide)⟩
  · rfl
  · intro c isDelimiter
    have noArgument : c ∈ [',', '(', ')', ';', '{', '}'] :=
      List.mem_append_right [',', '(', ')'] isDelimiter
    have apart : isWordChar c = false ∧ c ∉ ['.', '(', ')', ',', ' '] := by
      simp only [List.mem_cons, List.not_mem_nil, or_false] at isDelimiter
      rcases isDelimiter with rfl | rfl | rfl <;> decide
    exact not_mem_call apart.1 apart.2
      fun argument member => (each argument member).noDelimiter c noArgument
  · rw [Method.call, readSimple_call isTrimmed_call]
    exact readCall_word known (fun argument member => (each argument member).trimmed)
      (fun argument member c isDelimiter => (each argument member).noDelimiter c
        (List.mem_append_left [';', '{', '}'] isDelimiter)) _

end

/-! ## Assignments -/

theorem restores_assign {target : String} {value : Clause} (named : IsName target.toList)
    (noKeyword : target.toList ≠ loopKeyword) (renderable : value.IsRenderable) :
    Restores room (target.toList ++ ' ' :: '=' :: ' ' :: value.source.toList ++ [';'])
      (.assign target value) := by
  have targetTrimmed : IsTrimmed target.toList := isTrimmed_of_word named.isWordChar
  have targetSolid : target.toList ≠ [] := by
    intro empty
    rw [empty] at named
    exact named
  have trimmed : IsTrimmed (target.toList ++ ' ' :: '=' :: ' ' :: value.source.toList) :=
    targetTrimmed.append renderable.trimmed targetSolid renderable.solid [' ', '=', ' ']
  have plain : IsPlain (target.toList ++ ' ' :: '=' :: ' ' :: value.source.toList) :=
    (isPlain_of_word named.isWordChar).append_cons
      ((renderable.plain.cons (by decide)).cons (by decide)) (by decide)
  apply Restores.of_simple
  · refine ⟨plain.concat (by decide), ?_⟩
    rw [List.append_assoc]
    exact targetTrimmed.append (by decide) targetSolid (List.cons_ne_nil _ _) _
  · rw [List.append_assoc, List.cons_append, startsLoop_append_cons _ _ (by decide),
      Bool.eq_false_iff, ne_eq, startsLoop_iff, leadingWord_of_word named.isWordChar]
    exact noKeyword
  · intro c isDelimiter
    have notInSource := renderable.noDelimiter c isDelimiter
    have apart : isWordChar c = false ∧ c ≠ ' ' ∧ c ≠ '=' := by
      simp only [List.mem_cons, List.not_mem_nil, or_false] at isDelimiter
      rcases isDelimiter with rfl | rfl | rfl <;> decide
    have notInTarget := not_mem_word named.isWordChar apart.1
    simp [notInSource, notInTarget, apart]
  · rw [readSimple_assignment trimmed (not_objectWord_begins_assignment named)
      (readAssignment?_name named renderable.solid renderable.trimmed), renderable.read,
      String.ofList_toList]

/-! ## Loops -/

/-- A text that is empty or ends with a line end. -/
def IsWholeLines (text : List Char) : Prop :=
  text = [] ∨ ∃ lines, text = lines ++ ['\n']

theorem isWholeLines_renderAll (commands : List Command) :
    IsWholeLines (Command.renderAll commands) := by
  induction commands with
  | nil => exact .inl Command.renderAll.eq_1
  | cons command rest ih =>
      right
      rw [Command.renderAll]
      rcases ih with empty | ⟨lines, whole⟩
      · exact ⟨command.render, by rw [empty]⟩
      · exact ⟨command.render ++ '\n' :: lines, by rw [whole]; simp⟩

theorem IsWholeLines.normalize_append {text last : List Char} (whole : IsWholeLines text)
    (solid : normalize last ≠ []) :
    normalize (text ++ last) = spaced (normalize text) ++ normalize last := by
  rcases whole with rfl | ⟨lines, rfl⟩
  · rfl
  · rw [List.append_assoc, List.singleton_append,
      normalize_append_lineFeed_of_right_solid lines solid,
      normalize_append_lineFeed_of_right_nil rfl]

theorem joinLoop_cons (header body : List Char) (c : Char) :
    joinLoop header (c :: body) =
      (loopKeyword ++ '(' :: (header ++ [')', '{'])) ++ c :: (body ++ ['}']) := by
  simp [joinLoop]

theorem normalize_joinLoop {header lines : List Char} (plain : IsPlain header)
    (whole : IsWholeLines lines) :
    normalize (joinLoop header ('\n' :: lines)) =
      joinLoop header (' ' :: spaced (normalize lines)) := by
  have headNormal : IsNormal (loopKeyword ++ '(' :: (header ++ [')', '{'])) := by
    constructor
    · have closed : IsPlain (header ++ [')', '{']) :=
        plain.append_cons (isPlain_nil.cons (by decide)) (by decide)
      exact (isPlain_of_word isWordChar_of_mem_loopKeyword).append_cons closed (by decide)
    · have ends : loopKeyword ++ '(' :: (header ++ [')', '{']) =
          'f' :: ('o' :: 'r' :: '(' :: (header ++ [')']) ++ ['{']) := by
        simp [loopKeyword]
      exact isTrimmed_of_ends ends (by decide) (by decide)
  have brace : normalize ['}'] = ['}'] := by decide
  have lastLine : normalize (lines ++ ['}']) = spaced (normalize lines) ++ ['}'] := by
    rw [whole.normalize_append (by rw [brace]; exact List.cons_ne_nil _ _), brace]
  have headSolid : loopKeyword ++ '(' :: (header ++ [')', '{']) ≠ [] := List.cons_ne_nil _ _
  rw [joinLoop_cons, joinLoop_cons, normalize_append_lineFeed
    (by rw [headNormal.normalize_eq]; exact headSolid) (by simp [lastLine]),
    headNormal.normalize_eq, lastLine]

theorem isBalanced_spaced {text : List Char} (balanced : IsBalanced '{' '}' text) :
    IsBalanced '{' '}' (' ' :: spaced text) := by
  have space : IsBalanced '{' '}' [' '] := isBalanced_of_not_mem (by decide) (by decide)
  have inner : IsBalanced '{' '}' (spaced text) := by
    rw [spaced]
    split
    · exact isBalanced_of_not_mem List.not_mem_nil List.not_mem_nil
    · exact balanced.append space
  exact space.append inner

theorem isBalanced_joinLoop {header body : List Char} (noOpening : '{' ∉ header)
    (noClosing : '}' ∉ header) (balanced : IsBalanced '{' '}' body) :
    IsBalanced '{' '}' (joinLoop header body) := by
  have lead : IsBalanced '{' '}' (loopKeyword ++ '(' :: (header ++ [')'])) := by
    apply isBalanced_of_not_mem
    · simpa [loopKeyword] using noOpening
    · simpa [loopKeyword] using noClosing
  have whole : joinLoop header body =
      (loopKeyword ++ '(' :: (header ++ [')'])) ++ '{' :: (body ++ ['}']) := by
    simp [joinLoop]
  rw [whole]
  exact lead.append (balanced.enclose (by decide))

theorem isPlain_joinHeader {init condition increment : List Char} (initPlain : IsPlain init)
    (conditionPlain : IsPlain condition) (incrementPlain : IsPlain increment) :
    IsPlain (joinHeader init condition increment) :=
  initPlain.append_cons (conditionPlain.append_cons incrementPlain (by decide)) (by decide)

theorem not_mem_joinHeader {init condition increment : Clause} (initPart : init.IsHeaderPart)
    (conditionPart : condition.IsHeaderPart) (incrementPart : increment.IsHeaderPart) {c : Char}
    (isBrace : c ∈ ['{', '}']) :
    c ∉ joinHeader init.source.toList condition.source.toList increment.source.toList := by
  have isDelimiter : c ∈ [';', '{', '}'] := List.mem_cons_of_mem _ isBrace
  have notInInit := initPart.renderable.noDelimiter c isDelimiter
  have notInCondition := conditionPart.renderable.noDelimiter c isDelimiter
  have notInIncrement := incrementPart.renderable.noDelimiter c isDelimiter
  have other : c ≠ ';' := by
    rintro rfl
    exact absurd isBrace (by decide)
  simp [joinHeader, notInInit, notInCondition, notInIncrement, other]

theorem restores_loop {init condition increment : Clause} {body : List Command}
    (initPart : init.IsHeaderPart) (conditionPart : condition.IsHeaderPart)
    (incrementPart : increment.IsHeaderPart)
    (bodyRead : readBlockWith (bodyReader room) (Command.renderAll body) = ⟨body, []⟩)
    (bodyBalanced : IsBalanced '{' '}' (normalize (Command.renderAll body))) :
    Restores (room + 1) (Command.loop init condition increment body).render
      (.loop init condition increment body) := by
  have headerPlain := isPlain_joinHeader initPart.renderable.plain conditionPart.renderable.plain
    incrementPart.renderable.plain
  have headerBalanced :=
    isBalanced_joinHeader initPart.balanced conditionPart.balanced incrementPart.balanced
  have parts := headerParts_joinHeader initPart.balanced conditionPart.balanced
    (initPart.renderable.noDelimiter ';' (by decide))
    (conditionPart.renderable.noDelimiter ';' (by decide))
    (incrementPart.renderable.noDelimiter ';' (by decide))
  have innerBalanced := isBalanced_spaced bodyBalanced
  have normal := normalize_joinLoop headerPlain (isWholeLines_renderAll body)
  have taken := loopText?_joinLoop headerBalanced innerBalanced parts (by
    simp [initPart.renderable.solid, initPart.renderable.trimmed, conditionPart.renderable.solid,
      conditionPart.renderable.trimmed, incrementPart.renderable.solid,
      incrementPart.renderable.trimmed])
  -- What stands between the braces has the normal form of the rendered body.
  have inner : readBlockWith (bodyReader room)
      (' ' :: spaced (normalize (Command.renderAll body))) = ⟨body, []⟩ := by
    rw [← bodyRead, readBlockWith, readBlockWith, (isNormal_normalize _).normalize_spaced]
  rw [Command.render]
  apply Restores.of_cut
  · rw [normal, cut_loop headerBalanced innerBalanced]
  · simp only [Piece.text, trim_eq_self_iff.mpr (isTrimmed_joinLoop _ _), readStatementWith,
      startsLoop_joinLoop, if_true, readLoop, taken, bodyReader, inner,
      initPart.renderable.read, conditionPart.renderable.read, incrementPart.renderable.read]
  · rw [normal]
    exact isBalanced_joinLoop
      (not_mem_joinHeader initPart conditionPart incrementPart (by decide))
      (not_mem_joinHeader initPart conditionPart incrementPart (by decide)) innerBalanced

/-! ## Programs -/

theorem isBalanced_normalize_append {left right : List Char}
    (leftBalanced : IsBalanced '{' '}' (normalize left))
    (rightBalanced : IsBalanced '{' '}' (normalize right)) :
    IsBalanced '{' '}' (normalize (left ++ '\n' :: right)) := by
  rcases normalize_append_lineFeed_cases left right with joined | joined | ⟨-, -, joined⟩
  · rw [joined]
    exact rightBalanced
  · rw [joined]
    exact leftBalanced
  · have space : IsBalanced '{' '}' [' '] := isBalanced_of_not_mem (by decide) (by decide)
    rw [joined]
    exact leftBalanced.append (space.append rightBalanced)

theorem readBlockWith_renderAll {commands : List Command}
    (each : ∀ command ∈ commands, Restores room command.render command) :
    readBlockWith (bodyReader room) (Command.renderAll commands) = ⟨commands, []⟩ ∧
      IsBalanced '{' '}' (normalize (Command.renderAll commands)) := by
  induction commands with
  | nil =>
      rw [Command.renderAll]
      refine ⟨?_, isBalanced_of_not_mem List.not_mem_nil List.not_mem_nil⟩
      have empty : cut (normalize []) = ⟨[], [], none⟩ := cut_nil
      simp only [readBlockWith, empty]
      rfl
  | cons command rest ih =>
      have first := each command List.mem_cons_self
      obtain ⟨restRead, restBalanced⟩ :=
        ih fun other member => each other (List.mem_cons_of_mem _ member)
      have restFaults : (cutFault? (Command.renderAll rest)).toList ++
          statementFaults (bodyReader room) (Command.renderAll rest) = [] := by
        rw [← faults_readBlockWith, restRead]
      obtain ⟨noCutFault, noFaults⟩ := List.append_eq_nil_iff.mp restFaults
      rw [Command.renderAll]
      refine ⟨?_, isBalanced_normalize_append first.balanced restBalanced⟩
      have commands := first.ends.commands_append (bodyReader room) (Command.renderAll rest)
      have faults := first.ends.faults_append (bodyReader room) (Command.renderAll rest)
      rw [first.read, restRead] at commands
      rw [first.read, noCutFault, noFaults] at faults
      exact congrArg₂ Program.mk commands faults

end Script

theorem Command.IsRenderable.restores {room : Nat} {command : Command}
    (renderable : command.IsRenderable room) : Restores room command.render command := by
  induction renderable with
  | create known shape name =>
      rw [Command.render]
      exact restores_call (by rw [callCommand?, known]) (by simp [shape, name])
  | color name token =>
      rw [Command.render]
      exact restores_call rfl (by simp [name, token])
  | move name x y =>
      rw [Command.render]
      exact restores_call rfl (by simp [name, x, y])
  | collidable name value =>
      rw [Command.render]
      exact restores_call rfl (by simp [name, value])
  | assign named noKeyword value =>
      rw [Command.render]
      exact restores_assign named noKeyword value
  | loop init condition increment body ih =>
      obtain ⟨bodyRead, bodyBalanced⟩ := readBlockWith_renderAll ih
      exact restores_loop init condition increment bodyRead bodyBalanced

/-- Reading a rendered program gives back its commands, without faults. -/
theorem Program.ofText_renderAll {commands : List Command}
    (renderable : ∀ command ∈ commands, command.IsRenderable 64) :
    Program.ofText (Command.renderAll commands) = ⟨commands, []⟩ :=
  (readBlockWith_renderAll fun command member => (renderable command member).restores).1

/-- A loop in a loop, an argument that is empty, a right-hand side without a tree and
a target that begins with the loop keyword. -/
theorem Program.ofText_renderAll_nested_loops :
    let part := Clause.ofText ['(', 'i', ')']
    let commands : List Command :=
      [.loop part part part [.loop part part part [], .create (.unknown "a /") ""],
        .assign "fort" (Clause.ofText ['=', '/', ')'])]
    (∀ command ∈ commands, command.IsRenderable 64) ∧
      Program.ofText (Command.renderAll commands) = ⟨commands, []⟩ := by
  intro part commands
  have name : IsBalanced '(' ')' ['i'] := isBalanced_of_not_mem (by decide) (by decide)
  have headerPart : (Clause.ofText ['(', 'i', ')']).IsHeaderPart :=
    ⟨Clause.isRenderable_ofText (by decide) (by decide) ⟨by decide, by decide⟩ (by simp),
      name.enclose (by decide)⟩
  have shape : IsArgument "a /" := ⟨by decide, ⟨by decide, by decide⟩, by simp⟩
  have empty : IsArgument "" := ⟨by decide, ⟨by decide, by decide⟩, by simp⟩
  have target : IsName "fort".toList := ⟨rfl, List.all_eq_true.mp rfl⟩
  have value : (Clause.ofText ['=', '/', ')']).IsRenderable :=
    Clause.isRenderable_ofText (by decide) (by decide) ⟨by decide, by decide⟩ (by simp)
  have renderable : ∀ command ∈ commands, command.IsRenderable 64 := by
    simp only [commands, List.forall_mem_cons, List.not_mem_nil, false_implies, implies_true,
      and_true]
    refine ⟨.loop headerPart headerPart headerPart ?_, .assign target (by decide) value⟩
    simp only [List.forall_mem_cons, List.not_mem_nil, false_implies, implies_true, and_true]
    exact ⟨.loop headerPart headerPart headerPart (by simp), .create rfl shape empty⟩
  exact ⟨renderable, Program.ofText_renderAll renderable⟩

end SceneScript
