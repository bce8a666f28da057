import SceneScript.Proofs.Script.Block
import SceneScript.Proofs.Script.Header

/-!
# How pieces are read

Whether a piece is a loop is decided twice: when a script is cut and when the piece is
read. Cutting skips ASCII blanks before it looks for the loop keyword, while reading
trims all blanks. So the two differ on a piece that has some other blank in front of
the keyword, and on no other. Of a piece that was cut as a loop, reading finds the
same header and the same body, unless something else than ASCII blanks stands between
the keyword and the header.
-/

set_option autoImplicit false

namespace SceneScript.Script

open SceneScript.Text

/-! ## Where pieces come from -/

/-- The piece is what cutting takes off the front of a text. -/
inductive CutsOff (text : List Char) : Piece → Prop where
  | loop {block rest : List Char} :
      startsLoop text = true → loopBlock text = .ok (block, rest) → CutsOff text (.loop block)
  | simple {statement rest : List Char} :
      skipBlanks text = text → startsLoop text = false →
      throughSemicolon text = some (statement, rest) → CutsOff text (.simple statement)

theorem exists_cutsOff {code : List Char} {piece : Piece} (member : piece ∈ (cut code).pieces) :
    ∃ text, text <:+ code ∧ CutsOff text piece := by
  fun_induction cut code with
  | case1 code text empty => cases member
  | case2 code text solid starts fault failed => cases member
  | case3 code text solid starts block rest found ih =>
      have suffix : text <:+ code := List.dropWhile_suffix isAsciiBlank
      rcases List.mem_cons.mp member with rfl | member
      · exact ⟨text, suffix, .loop starts found⟩
      · obtain ⟨other, within, cutsOff⟩ := ih member
        have behind : rest <:+ text := append_of_loopBlock found ▸ List.suffix_append block rest
        exact ⟨other, within.trans (behind.trans suffix), cutsOff⟩
  | case4 code text solid notLoop failed => cases member
  | case5 code text solid notLoop statement rest found ih =>
      have suffix : text <:+ code := List.dropWhile_suffix isAsciiBlank
      rcases List.mem_cons.mp member with rfl | member
      · exact ⟨text, suffix, .simple (skipBlanks_idem code) (by simpa using notLoop) found⟩
      · obtain ⟨other, within, cutsOff⟩ := ih member
        have behind : rest <:+ text :=
          append_of_throughSemicolon found ▸ List.suffix_append statement rest
        exact ⟨other, within.trans (behind.trans suffix), cutsOff⟩

theorem CutsOff.isPrefix {text : List Char} {piece : Piece} (cutsOff : CutsOff text piece) :
    piece.text <+: text := by
  cases cutsOff with
  | loop _ found => exact ⟨_, append_of_loopBlock found⟩
  | simple _ _ found => exact ⟨_, append_of_throughSemicolon found⟩

theorem within_of_mem_statements {code text : List Char} (member : text ∈ (cut code).statements) :
    text <:+: code := by
  obtain ⟨piece, among, rfl⟩ := List.mem_map.mp member
  obtain ⟨whole, suffix, cutsOff⟩ := exists_cutsOff among
  exact (trim_within piece.text).trans (cutsOff.isPrefix.isInfix.trans suffix.isInfix)

/-! ## Simple pieces -/

theorem exists_body_of_throughSemicolon {text statement rest : List Char}
    (found : throughSemicolon text = some (statement, rest)) :
    ∃ body, statement = body ++ [';'] ∧ text = body ++ ';' :: rest := by
  have whole := append_of_throughSemicolon found
  rw [throughSemicolon] at found
  split at found
  · cases found
  rename_i semicolon after dropped
  cases found
  cases eq_of_dropWhile_eq_cons dropped
  refine ⟨_, rfl, ?_⟩
  rw [List.append_assoc, List.singleton_append] at whole
  exact whole.symm

theorem trimStart_append_semicolon (body : List Char) :
    trimStart (body ++ [';']) = trimStart body ++ [';'] := by
  rw [trimStart, List.dropWhile_append]
  split
  · rename_i empty
    rw [trimStart, List.isEmpty_iff.mp empty]
    rfl
  · rfl

theorem trim_append_semicolon (body : List Char) :
    trim (body ++ [';']) = trimStart (body ++ [';']) := by
  rw [trim, trimEnd_eq_self_iff, trimStart_append_semicolon]
  intro c closes
  rw [List.getLast?_concat, Option.some.injEq] at closes
  rw [← closes]
  decide

/-- A blank in front of the loop keyword that cutting does not skip. -/
structure HidesKeyword (text : List Char) (blank : Char) (blanks rest : List Char) : Prop where
  shape : text = blank :: (blanks ++ rest)
  first : isBlank blank = true
  notSkipped : isAsciiBlank blank = false
  more : ∀ c ∈ blanks, isBlank c = true
  keyword : startsLoop rest = true

theorem trimStart_eq_self_of_startsLoop {text : List Char} (starts : startsLoop text = true) :
    trimStart text = text := by
  rw [trimStart_eq_self_iff]
  intro c head
  apply isBlank_of_isWordChar
  rw [startsLoop_iff] at starts
  have whole := leadingWord_append_afterWord text
  rw [starts] at whole
  rw [← whole] at head
  cases head
  decide

theorem HidesKeyword.trimStart_eq {text blanks rest : List Char} {blank : Char}
    (hides : HidesKeyword text blank blanks rest) : trimStart text = rest := by
  rw [hides.shape, trimStart, List.dropWhile_cons_of_pos hides.first,
    List.dropWhile_append_of_pos hides.more, ← trimStart,
    trimStart_eq_self_of_startsLoop hides.keyword]

/-- Reading takes a simple piece for a loop exactly if a blank hides the keyword. -/
theorem CutsOff.startsLoop_trim_iff {text statement : List Char}
    (cutsOff : CutsOff text (.simple statement)) :
    startsLoop statement = false ∧
      (startsLoop (trim statement) = true ↔
        ∃ blank blanks rest, HidesKeyword statement blank blanks rest) := by
  obtain _ | @⟨_, rest, skipped, simple, found⟩ := cutsOff
  obtain ⟨body, rfl, rfl⟩ := exists_body_of_throughSemicolon found
  have ends : isWordChar ';' = false := by decide
  have plain : startsLoop (body ++ [';']) = false := by
    rw [startsLoop_append_cons _ _ ends] at simple ⊢
    exact simple
  refine ⟨plain, ?_⟩
  rw [trim_append_semicolon]
  constructor
  · intro starts
    have whole := List.takeWhile_append_dropWhile (p := isBlank) (l := body ++ [';'])
    have allBlank := List.all_eq_true.mp (List.all_takeWhile (p := isBlank) (l := body ++ [';']))
    cases leading : (body ++ [';']).takeWhile isBlank with
    | nil =>
        -- Without blanks in front, trimming changes nothing, and the piece is no loop.
        rw [leading, List.nil_append, ← trimStart] at whole
        rw [whole, plain] at starts
        cases starts
    | cons blank blanks =>
        rw [leading] at whole allBlank
        obtain ⟨first, more⟩ := List.forall_mem_cons.mp allBlank
        have notSkipped : isAsciiBlank blank = false := by
          have shape : body ++ ';' :: rest =
              blank :: (blanks ++ trimStart (body ++ [';']) ++ rest) := by
            rw [← List.cons_append, ← List.cons_append, trimStart, whole, List.append_assoc,
              List.singleton_append]
          rw [shape] at skipped
          exact isAsciiBlank_of_skipBlanks skipped
        exact ⟨blank, blanks, _, whole.symm, first, notSkipped, more, starts⟩
  · rintro ⟨blank, blanks, rest, hides⟩
    rw [hides.trimStart_eq]
    exact hides.keyword

/-- A loop that can be taken apart ends with its body. -/
theorem exists_body_of_loopText? {statement : List Char} {loop : LoopText}
    (taken : loopText? statement = some loop) :
    ∃ front, statement = front ++ '{' :: (loop.body ++ ['}']) := by
  unfold loopText? at taken
  split at taken
  · cases taken
  rename_i header afterHeader headerFound
  split at taken
  · split at taken
    · cases taken
    split at taken
    · rename_i block bodyFound
      cases taken
      obtain ⟨body, -, rfl, whole⟩ := (balanced?_eq_some_iff (by decide)).mp bodyFound
      obtain ⟨-, -, -, before⟩ := (balanced?_eq_some_iff (by decide)).mp headerFound
      -- The statement ends as what follows its header does, and that ends with the body.
      have inAfter : skipBlanks afterHeader <:+ afterHeader := List.dropWhile_suffix _
      have inStatement : afterHeader <:+ statement :=
        (before ▸ List.suffix_append header afterHeader).trans
          ((List.dropWhile_suffix _).trans (List.drop_suffix _ _))
      obtain ⟨front, rfl⟩ := inAfter.trans inStatement
      refine ⟨front, ?_⟩
      rw [whole, List.append_nil, interior, List.tail_cons, List.dropLast_concat]
    · cases taken
  · cases taken

/-- The clauses of a loop are taken out of its text. -/
theorem clauses_subset_of_loopText? {statement : List Char} {loop : LoopText}
    (taken : loopText? statement = some loop) :
    ∀ part ∈ [loop.init, loop.condition, loop.increment], part ⊆ statement := by
  unfold loopText? at taken
  split at taken
  · cases taken
  rename_i header afterHeader headerFound
  split at taken
  · rename_i init condition increment divided
    split at taken
    · cases taken
    split at taken
    · cases taken
      intro part member c inside
      have inHeader : c ∈ header := (List.tail_suffix header).subset
        (List.dropLast_subset _ ((headerParts_eq_iff.mp divided).subset member inside))
      have behindKeyword : c ∈ skipBlanks (statement.drop loopKeyword.length) :=
        append_of_balanced? headerFound ▸ List.mem_append_left afterHeader inHeader
      exact List.drop_subset _ _ ((List.dropWhile_suffix _).subset behindKeyword)
    · cases taken
  · cases taken

/-- A simple piece is read as a simple statement, unless a blank other than an ASCII
blank hides the loop keyword at its start; then it is rejected as a malformed loop. -/
theorem readStatementWith_of_simple_piece {source statement : List Char}
    (piece : .simple statement ∈ (cut (normalize source)).pieces)
    (readBody : Option (List Char → Program)) :
    ((∃ blank blanks rest, HidesKeyword statement blank blanks rest) →
      startsLoop (trim statement) = true ∧
        readStatementWith readBody (trim statement) =
          .plain (.error (.malformedLoop (String.ofList (trim statement))))) ∧
    ((¬ ∃ blank blanks rest, HidesKeyword statement blank blanks rest) →
      startsLoop (trim statement) = false ∧
        readStatementWith readBody (trim statement) = .plain (readSimple (trim statement))) ∧
    ((∀ c ∈ source, isBlank c = true → isAsciiBlank c = true) →
      startsLoop (trim statement) = false) := by
  obtain ⟨text, within, cutsOff⟩ := exists_cutsOff piece
  have readsLoop := cutsOff.startsLoop_trim_iff.2
  have onlyOnce : trim (trim statement) = trim statement := trim_eq_self_iff.mpr (isTrimmed_trim _)
  obtain _ | ⟨-, -, found⟩ := cutsOff
  obtain ⟨body, rfl, rfl⟩ := exists_body_of_throughSemicolon found
  refine ⟨fun hidden => ?_, fun exposed => ?_, fun onlyAscii => ?_⟩
  · have starts := readsLoop.mpr hidden
    have noLoop : loopText? (trim (body ++ [';'])) = none := by
      cases taken : loopText? (trim (body ++ [';'])) with
      | none => rfl
      | some loop =>
          obtain ⟨front, shape⟩ := exists_body_of_loopText? taken
          have closes := congrArg List.getLast? shape
          rw [trim_append_semicolon, trimStart_append_semicolon, List.getLast?_concat,
            ← List.cons_append, ← List.append_assoc, List.getLast?_concat] at closes
          cases closes
    refine ⟨starts, ?_⟩
    simp only [readStatementWith, onlyOnce, starts, if_true, readLoop, noLoop]
  · have starts : startsLoop (trim (body ++ [';'])) = false :=
      Bool.eq_false_iff.mpr fun starts => exposed (readsLoop.mp starts)
    refine ⟨starts, ?_⟩
    simp only [readStatementWith, onlyOnce, starts, Bool.false_eq_true, if_false]
  · apply Bool.eq_false_iff.mpr
    intro starts
    obtain ⟨blank, blanks, rest, hides⟩ := readsLoop.mp starts
    have inPiece : blank ∈ body ++ [';'] := by
      rw [hides.shape]
      exact List.mem_cons_self
    have inCode : blank ∈ normalize source := by
      apply within.subset
      rw [← List.singleton_append, ← List.append_assoc]
      exact List.mem_append_left _ inPiece
    have ascii : isAsciiBlank blank = true := by
      rcases mem_of_mem_normalize inCode with inSource | rfl
      · exact onlyAscii blank inSource hides.first
      · decide
    rw [hides.notSkipped] at ascii
    cases ascii

/-- A no-break space in front of an assignment to the loop keyword. -/
theorem readStatementWith_of_piece_behind_no_break_space :
    let source := "x = 1;\u00a0for = 2;".toList
    let statement := "\u00a0for = 2;".toList
    .simple statement ∈ (cut (normalize source)).pieces ∧
      readStatementWith none (trim statement) =
        .plain (.error (.malformedLoop (String.ofList (trim statement)))) := by
  intro source statement
  have piece : .simple statement ∈ (cut (normalize source)).pieces := by decide +kernel
  have hides : HidesKeyword statement '\u00a0' [] "for = 2;".toList :=
    ⟨by decide, by decide, by decide, by simp, by decide⟩
  exact ⟨piece, ((readStatementWith_of_simple_piece piece none).1 ⟨_, _, _, hides⟩).2⟩

/-- A vertical tab in front of a loop: the piece up to the first semicolon of its header
is read as a loop. -/
theorem piece_behind_vertical_tab_read_as_loop :
    ∃ source statement, .simple statement ∈ (cut (normalize source)).pieces ∧
      startsLoop (trim statement) = true := by
  refine ⟨"x = 1;\x0bfor(i = 0; i < 2; i = i + 1)\x7by = i;\x7d".toList,
    "\x0bfor(i = 0;".toList, ?_, ?_⟩
  · decide +kernel
  · decide +kernel

/-! ## Loops -/

/-- The text of a loop taken apart at its delimiters: what stands between the keyword
and the first parenthesis, between matching parentheses, between these and the body,
and between matching braces. -/
structure LoopShape (text gap header blanks body : List Char) : Prop where
  shape : text =
    loopKeyword ++ (gap ++ '(' :: (header ++ ')' :: (blanks ++ '{' :: (body ++ ['}']))))
  keyword : startsLoop text = true
  firstParenthesis : '(' ∉ gap
  header : IsBalanced '(' ')' header
  blanks : ∀ c ∈ blanks, isAsciiBlank c = true
  body : IsBalanced '{' '}' body

theorem CutsOff.exists_loopShape {text block : List Char} (cutsOff : CutsOff text (.loop block)) :
    ∃ gap header blanks body, LoopShape block gap header blanks body := by
  obtain @⟨_, rest, starts, found⟩ | _ := cutsOff
  simp only [loopBlock] at found
  split at found
  · cases found
  split at found
  · cases found
  rename_i headerBlock afterHeader headerFound
  split at found
  · cases found
  split at found
  · cases found
  rename_i bodyBlock afterBody bodyFound
  simp only [Except.ok.injEq, Prod.mk.injEq] at found
  obtain ⟨rfl, -⟩ := found
  obtain ⟨header, headerBalanced, rfl, fromHeader⟩ :=
    (balanced?_eq_some_iff (by decide)).mp headerFound
  obtain ⟨body, bodyBalanced, rfl, -⟩ := (balanced?_eq_some_iff (by decide)).mp bodyFound
  -- The keyword has no parenthesis, so it stands in front of the first one.
  have lead : text.takeWhile (· ≠ '(') =
      loopKeyword ++ (afterWord text).takeWhile (· ≠ '(') := by
    have whole := leadingWord_append_afterWord text
    rw [startsLoop_iff.mp starts] at whole
    rw [← whole, List.takeWhile_append_of_pos (by simp [loopKeyword]), whole]
  refine ⟨(afterWord text).takeWhile (· ≠ '('), header, afterHeader.takeWhile isAsciiBlank, body,
    ?_, ?_, ?_, headerBalanced, ?_, bodyBalanced⟩
  · rw [lead]
    simp
  · have ends : isWordChar '(' = false := by decide
    have whole := List.takeWhile_append_dropWhile (p := (· ≠ '(')) (l := text)
    rw [fromHeader, List.cons_append] at whole
    rw [← whole, startsLoop_append_cons _ _ ends] at starts
    rw [List.cons_append, startsLoop_append_cons _ _ ends]
    exact starts
  · intro member
    have other := List.mem_takeWhile_imp member
    simp at other
  · intro c member
    exact List.mem_takeWhile_imp member

/-- Which headers a loop can have, in the words of the reader. -/
theorem exists_solid_parts_iff {header : List Char} :
    (∃ init condition increment, Division header [init, condition, increment] ∧
        ∀ part ∈ [init, condition, increment], ∃ c ∈ part, isBlank c = false) ↔
      ∃ init condition increment, headerParts header = [init, condition, increment] ∧
        ¬ (trim init = [] ∨ trim condition = [] ∨ trim increment = []) := by
  have filled : ∀ part : List Char, (∃ c ∈ part, isBlank c = false) ↔ trim part ≠ [] := by
    intro part
    rw [ne_eq, trim_eq_nil_iff]
    simp
  simp only [← headerParts_eq_iff, filled, List.forall_mem_cons, List.not_mem_nil, false_implies,
    implies_true, and_true, not_or, ne_eq]

section
variable {text gap header blanks body : List Char} (loop : LoopShape text gap header blanks body)
include loop

theorem LoopShape.trim_eq : trim text = text := by
  have ends : text = 'f' :: ('o' :: 'r' ::
      (gap ++ '(' :: (header ++ ')' :: (blanks ++ '{' :: body))) ++ ['}']) := by
    rw [loop.shape]
    simp [loopKeyword]
  exact trim_eq_self_iff.mpr (isTrimmed_of_ends ends (by decide) (by decide))

theorem LoopShape.drop_keyword : text.drop loopKeyword.length =
    gap ++ '(' :: (header ++ ')' :: (blanks ++ '{' :: (body ++ ['}']))) := by
  rw [loop.shape, List.drop_left]

/-- If only ASCII blanks stand in front of the header, reading finds the header and the
body that cutting found, and the body ends the statement. -/
theorem LoopShape.balanced?_eq (blankGap : ∀ c ∈ gap, isAsciiBlank c = true) :
    balanced? '(' ')' (skipBlanks (text.drop loopKeyword.length)) =
        some ('(' :: (header ++ [')']), blanks ++ '{' :: (body ++ ['}'])) ∧
      balanced? '{' '}' (skipBlanks (blanks ++ '{' :: (body ++ ['}']))) =
        some ('{' :: (body ++ ['}']), []) := by
  have toHeader : skipBlanks (text.drop loopKeyword.length) =
      '(' :: (header ++ ')' :: (blanks ++ '{' :: (body ++ ['}']))) := by
    rw [loop.drop_keyword, skipBlanks, List.dropWhile_append_of_pos blankGap]
    rfl
  have toBody : skipBlanks (blanks ++ '{' :: (body ++ ['}'])) = '{' :: (body ++ ['}']) := by
    rw [skipBlanks, List.dropWhile_append_of_pos loop.blanks]
    rfl
  rw [toHeader, toBody]
  exact ⟨loop.header.balanced? (by decide) _, loop.body.balanced? (by decide) []⟩

theorem LoopShape.balanced?_eq_none (otherGap : ¬ ∀ c ∈ gap, isAsciiBlank c = true) :
    balanced? '(' ')' (skipBlanks (text.drop loopKeyword.length)) = none := by
  have stops : gap.dropWhile isAsciiBlank ≠ [] := by
    rwa [ne_eq, List.dropWhile_eq_nil_iff]
  apply balanced?_of_head
  rw [loop.drop_keyword, skipBlanks, dropWhile_append_of_ne_nil stops,
    List.head?_append_of_ne_nil _ stops]
  intro head
  exact loop.firstParenthesis ((List.dropWhile_suffix _).subset (List.mem_of_mem_head? head))

/-- What keeps a loop from being taken apart can only be its header: not only ASCII
blanks stand in front of it, or it does not have three parts that are not blank. -/
theorem LoopShape.loopText?_eq_none_iff :
    loopText? text = none ↔
      (¬ ∀ c ∈ gap, isAsciiBlank c = true) ∨
      ¬ ∃ init condition increment, Division header [init, condition, increment] ∧
        ∀ part ∈ [init, condition, increment], ∃ c ∈ part, isBlank c = false := by
  by_cases blankGap : ∀ c ∈ gap, isAsciiBlank c = true
  · obtain ⟨headerFound, bodyFound⟩ := loop.balanced?_eq blankGap
    have inHeader : interior ('(' :: (header ++ [')'])) = header := by
      rw [interior, List.tail_cons, List.dropLast_concat]
    rw [or_iff_right (not_not.mpr blankGap), exists_solid_parts_iff, loopText?, headerFound]
    simp only [inHeader, bodyFound]
    split
    · rename_i init condition increment parts
      simp only [parts, List.cons.injEq, and_true]
      split
      · rename_i blank
        simp only [true_iff]
        rintro ⟨_, _, _, ⟨rfl, rfl, rfl⟩, solid⟩
        exact solid blank
      · rename_i solid
        simp only [reduceCtorEq, false_iff, not_not]
        exact ⟨init, condition, increment, ⟨rfl, rfl, rfl⟩, solid⟩
    · rename_i other
      simp only [true_iff]
      rintro ⟨init, condition, increment, parts, -⟩
      exact other init condition increment parts
  · rw [loopText?, loop.balanced?_eq_none blankGap]
    simp only [blankGap, not_false_eq_true, true_or]

theorem LoopShape.readStatementWith_eq (readBody : Option (List Char → Program)) :
    readStatementWith readBody (trim text) = readLoop readBody text := by
  simp only [readStatementWith, loop.trim_eq, loop.keyword, if_true]

end

theorem readLoop_eq_error_iff (room : Nat) (statement : List Char) :
    (∃ fault, (readLoop (bodyReader room) statement).command = .error fault) ↔
      loopText? statement = none ∨ room = 0 := by
  unfold readLoop
  split
  · rename_i failed
    exact ⟨fun _ => .inl failed, fun _ => ⟨_, rfl⟩⟩
  rename_i loop taken
  cases room with
  | zero => exact ⟨fun _ => .inr rfl, fun _ => ⟨_, rfl⟩⟩
  | succ room =>
      constructor
      · rintro ⟨fault, failed⟩
        cases failed
      · rintro (failed | impossible)
        · rw [taken] at failed
          cases failed
        · cases impossible

/-- A piece that was cut as a loop is read as a loop, with the header and the body that
cutting found. Inside of `depth` loops it is rejected exactly if something else than
ASCII blanks stands in front of its header, if its header does not have three parts
that are not blank, or if loops must not nest any deeper. -/
theorem readStatementWith_of_loop_piece {code block : List Char}
    (piece : .loop block ∈ (cut code).pieces) :
    ∃ gap header blanks body, LoopShape block gap header blanks body ∧
      (∀ readBody, readStatementWith readBody (trim block) = readLoop readBody block) ∧
      (∀ depth,
        (∃ fault, (readStatementWith (bodyReader (64 - depth)) (trim block)).command =
            .error fault) ↔
          (¬ ∀ c ∈ gap, isAsciiBlank c = true) ∨
          (¬ ∃ init condition increment, Division header [init, condition, increment] ∧
            ∀ part ∈ [init, condition, increment], ∃ c ∈ part, isBlank c = false) ∨
          64 ≤ depth) ∧
      ((∀ c ∈ gap, isAsciiBlank c = true) →
        balanced? '(' ')' (skipBlanks (block.drop loopKeyword.length)) =
            some ('(' :: (header ++ [')']), blanks ++ '{' :: (body ++ ['}'])) ∧
          balanced? '{' '}' (skipBlanks (blanks ++ '{' :: (body ++ ['}']))) =
            some ('{' :: (body ++ ['}']), [])) := by
  obtain ⟨text, -, cutsOff⟩ := exists_cutsOff piece
  obtain ⟨gap, header, blanks, body, loop⟩ := cutsOff.exists_loopShape
  refine ⟨gap, header, blanks, body, loop, loop.readStatementWith_eq, fun depth => ?_,
    loop.balanced?_eq⟩
  have noRoom : 64 - depth = 0 ↔ 64 ≤ depth := Nat.sub_eq_zero_iff_le
  rw [loop.readStatementWith_eq, readLoop_eq_error_iff, loop.loopText?_eq_none_iff, noRoom,
    or_assoc]

/-- A loop whose header has a semicolon inside parentheses, with a loop in its body. It
is accepted inside of 63 loops and rejected inside of 64. -/
theorem readStatementWith_of_nested_loop_piece :
    let block := "for (i = 0; (a;b); i)\x7bfor(;;)\x7b\x7d\x7d".toList
    .loop block ∈ (cut block).pieces ∧
      (readStatementWith (bodyReader (64 - 63)) (trim block)).command.isOk = true ∧
      ∃ fault, (readStatementWith (bodyReader (64 - 64)) (trim block)).command = .error fault := by
  intro block
  have piece : .loop block ∈ (cut block).pieces := by decide +kernel
  obtain ⟨gap, header, blanks, body, -, -, rejected, -⟩ := readStatementWith_of_loop_piece piece
  exact ⟨piece, by decide +kernel, (rejected 64).mpr (.inr (.inr (Nat.le_refl 64)))⟩

end SceneScript.Script
