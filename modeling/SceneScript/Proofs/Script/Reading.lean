import SceneScript.Proofs.Script.Block
import SceneScript.Proofs.Script.Header

/-!
# Readers of statements

What each reader makes of a well-formed statement: a call of a method, an
assignment, a loop. The texts in a statement are arbitrary up to the delimiters that
the reader looks for.
-/

set_option autoImplicit false

namespace SceneScript.Script

open SceneScript.Text

/-! ## Calls -/

theorem argumentText?_between {inner : List Char} (noOpening : '(' ∉ inner)
    (noClosing : ')' ∉ inner) : argumentText? ('(' :: (inner ++ [')'])) = some inner := by
  have noParenthesis : inner.all (fun c => c ≠ '(' && c ≠ ')') = true := by
    rw [List.all_eq_true]
    intro c member
    simp only [ne_eq, decide_not, Bool.and_eq_true, Bool.not_eq_true', decide_eq_false_iff_not]
    exact ⟨fun same => noOpening (same ▸ member), fun same => noClosing (same ▸ member)⟩
  rw [argumentText?, List.getLast?_concat, List.dropLast_concat, if_pos ⟨rfl, noParenthesis⟩]

theorem not_mem_intercalate {c : Char} {separator : List Char} {texts : List (List Char)}
    (notBetween : c ∉ separator) (notInside : ∀ text ∈ texts, c ∉ text) :
    c ∉ separator.intercalate texts := by
  induction texts with
  | nil => exact List.not_mem_nil
  | cons text rest ih =>
      have inRest := ih fun other member => notInside other (List.mem_cons_of_mem _ member)
      have inText := notInside text List.mem_cons_self
      cases rest with
      | nil => simpa using inText
      | cons next rest =>
          rw [List.intercalate_cons_cons, List.mem_append, List.mem_append, not_or, not_or]
          exact ⟨⟨inText, notBetween⟩, inRest⟩

/-- A comma and a space between texts is a comma between texts that have a space in
front, except for the first. -/
theorem intercalate_comma_space (first : List Char) (rest : List (List Char)) :
    [',', ' '].intercalate (first :: rest) =
      [','].intercalate (first :: rest.map (' ' :: ·)) := by
  induction rest generalizing first with
  | nil => rfl
  | cons next rest ih =>
      rw [List.map_cons, List.intercalate_cons_cons, List.intercalate_cons_cons, ih]
      cases rest with
      | nil => simp
      | cons other rest => simp [List.intercalate_cons_cons]

theorem map_trim_splitOn {arguments : List (List Char)} (some : arguments ≠ [])
    (trimmed : ∀ argument ∈ arguments, IsTrimmed argument)
    (noComma : ∀ argument ∈ arguments, ',' ∉ argument) :
    (([',', ' '].intercalate arguments).splitOn ',').map trim = arguments := by
  cases arguments with
  | nil => exact absurd rfl some
  | cons first rest =>
      have separated : ∀ part ∈ first :: rest.map (' ' :: ·), ',' ∉ part := by
        intro part member
        rcases List.mem_cons.mp member with rfl | member
        · exact noComma part List.mem_cons_self
        · obtain ⟨argument, isArgument, rfl⟩ := List.mem_map.mp member
          simpa using noComma argument (List.mem_cons_of_mem _ isArgument)
      have others : (rest.map (' ' :: ·)).map trim = rest := by
        rw [List.map_map]
        refine (List.map_congr_left fun argument member => ?_).trans (List.map_id rest)
        rw [Function.comp_apply, trim_cons_of_isBlank rfl,
          trim_eq_self_iff.mpr (trimmed argument (List.mem_cons_of_mem _ member)), id]
      rw [intercalate_comma_space, List.splitOn_intercalate ',' separated (List.cons_ne_nil _ _),
        List.map_cons, trim_eq_self_iff.mpr (trimmed first List.mem_cons_self), others]

/-- The text between the parentheses of a call. -/
def joinArguments (arguments : List String) : List Char :=
  [',', ' '].intercalate (arguments.map String.toList)

theorem splitOn_joinArguments {arguments : List String} (some : arguments ≠ [])
    (trimmed : ∀ argument ∈ arguments, IsTrimmed argument.toList)
    (noComma : ∀ argument ∈ arguments, ',' ∉ argument.toList) :
    ((joinArguments arguments).splitOn ',').map (fun part => String.ofList (trim part)) =
      arguments := by
  have steps : (fun part => String.ofList (trim part)) = String.ofList ∘ trim := rfl
  have back : String.ofList ∘ String.toList = id := funext fun text => String.ofList_toList
  rw [steps, ← List.map_map, joinArguments, map_trim_splitOn (by simpa using some)
    (by simpa using trimmed) (by simpa using noComma), List.map_map, back, List.map_id]

theorem not_mem_joinArguments {c : Char} {arguments : List String} (notBetween : c ∉ [',', ' '])
    (notInside : ∀ argument ∈ arguments, c ∉ argument.toList) : c ∉ joinArguments arguments :=
  not_mem_intercalate notBetween (by simpa using notInside)

theorem ofWord?_word (method : Method) :
    Method.ofWord? (String.ofList method.word.toList) = some method := by
  cases method <;> decide

theorem isWordChar_of_mem_word (method : Method) :
    ∀ c ∈ method.word.toList, isWordChar c = true := by
  rw [← List.all_eq_true]
  cases method <;> decide

theorem isWordChar_of_mem_object :
    ∀ c ∈ ['o', 'b', 'j', 'e', 'c', 't'], isWordChar c = true :=
  List.all_eq_true.mp rfl

theorem ne_nil_of_callCommand? {method : Method} {arguments : List String} {command : Command}
    (known : callCommand? method arguments = some command) : arguments ≠ [] := by
  rintro rfl
  cases method <;> cases known

theorem readCall_word {method : Method} {arguments : List String} {command : Command}
    (known : callCommand? method arguments = some command)
    (trimmed : ∀ argument ∈ arguments, IsTrimmed argument.toList)
    (noDelimiter : ∀ argument ∈ arguments, ∀ c ∈ [',', '(', ')'], c ∉ argument.toList)
    (body : String) :
    readCall (method.word.toList ++ '(' :: (joinArguments arguments ++ [')'])) body =
      .ok command := by
  have notInside : ∀ c ∈ [',', '(', ')'], ∀ argument ∈ arguments, c ∉ argument.toList :=
    fun c isDelimiter argument member => noDelimiter argument member c isDelimiter
  have ends : isWordChar '(' = false := by decide
  have noBlank : trimStart ('(' :: (joinArguments arguments ++ [')'])) =
      '(' :: (joinArguments arguments ++ [')']) := rfl
  rw [readCall, afterWord_word (isWordChar_of_mem_word method) ends,
    leadingWord_word (isWordChar_of_mem_word method) ends, noBlank,
    argumentText?_between (not_mem_joinArguments (by decide) (notInside '(' (by decide)))
      (not_mem_joinArguments (by decide) (notInside ')' (by decide)))]
  simp only [ofWord?_word, splitOn_joinArguments (ne_nil_of_callCommand? known) trimmed
    (notInside ',' (by decide)), known]

/-! ## Simple statements -/

theorem readSimple_call {call : List Char} (trimmed : IsTrimmed (objectWord ++ call)) :
    readSimple (objectWord ++ call ++ [';']) =
      readCall call (String.ofList (objectWord ++ call)) := by
  have isCall : objectWord.isPrefixOf (objectWord ++ call) = true := by
    rw [List.isPrefixOf_iff_prefix]
    exact List.prefix_append _ _
  simp only [readSimple, List.getLast?_concat, List.dropLast_concat, ne_eq, not_true_eq_false,
    if_false, trim_eq_self_iff.mpr trimmed, if_pos isCall, List.drop_left]

theorem readSimple_assignment {body : List Char} {command : Command} (trimmed : IsTrimmed body)
    (noCall : ¬ objectWord <+: body) (read : readAssignment? body = some command) :
    readSimple (body ++ [';']) = .ok command := by
  have isOther : ¬ objectWord.isPrefixOf body = true := by
    rw [List.isPrefixOf_iff_prefix]
    exact noCall
  simp only [readSimple, List.getLast?_concat, List.dropLast_concat, ne_eq, not_true_eq_false,
    if_false, trim_eq_self_iff.mpr trimmed, if_neg isOther, read]

section
variable {target source : List Char} (named : IsName target)
include named

theorem afterWord_assignment : afterWord (target ++ ' ' :: '=' :: ' ' :: source) =
    ' ' :: '=' :: ' ' :: source :=
  afterWord_word named.isWordChar (by decide) _

theorem leadingWord_assignment : leadingWord (target ++ ' ' :: '=' :: ' ' :: source) = target :=
  leadingWord_word named.isWordChar (by decide) _

theorem not_objectWord_begins_assignment :
    ¬ objectWord <+: target ++ ' ' :: '=' :: ' ' :: source := by
  rintro ⟨rest, whole⟩
  have dot : afterWord (objectWord ++ rest) = '.' :: rest :=
    afterWord_word isWordChar_of_mem_object (by decide) rest
  rw [whole, afterWord_assignment named] at dot
  cases dot

theorem readAssignment?_name (solid : source ≠ []) (trimmed : IsTrimmed source) :
    readAssignment? (target ++ ' ' :: '=' :: ' ' :: source) =
      some (.assign (String.ofList target) (Clause.ofText source)) := by
  have starts : (target ++ ' ' :: '=' :: ' ' :: source).head?.any isWordStart = true := by
    cases target with
    | nil => exact named.elim
    | cons c rest => simpa using named.1
  have value : trim (' ' :: source) = source := by
    rw [trim_cons_of_isBlank rfl, trim_eq_self_iff.mpr trimmed]
  have equals : skipBlanks (' ' :: '=' :: ' ' :: source) = '=' :: ' ' :: source := rfl
  rw [readAssignment?, starts, afterWord_assignment named, leadingWord_assignment named, equals]
  simp [value, solid]

end

/-! ## Loops -/

/-- The text of a loop header. -/
def joinHeader (init condition increment : List Char) : List Char :=
  init ++ ';' :: (condition ++ ';' :: increment)

section
variable {init condition increment : List Char}

theorem headerParts_joinHeader (initBalanced : IsBalanced '(' ')' init)
    (conditionBalanced : IsBalanced '(' ')' condition) (noInit : ';' ∉ init)
    (noCondition : ';' ∉ condition) (noIncrement : ';' ∉ increment) :
    headerParts (joinHeader init condition increment) = [init, condition, increment] := by
  apply Division.headerParts_eq
  refine .next (enclosesSemicolons_of_not_mem noInit 0) initBalanced.whole.symm ?_
  refine .next (enclosesSemicolons_of_not_mem noCondition 0) conditionBalanced.whole.symm ?_
  exact .last (enclosesSemicolons_of_not_mem noIncrement 0)

theorem isBalanced_joinHeader (initBalanced : IsBalanced '(' ')' init)
    (conditionBalanced : IsBalanced '(' ')' condition)
    (incrementBalanced : IsBalanced '(' ')' increment) :
    IsBalanced '(' ')' (joinHeader init condition increment) := by
  have semicolon : IsBalanced '(' ')' [';'] := isBalanced_of_not_mem (by decide) (by decide)
  exact initBalanced.append (semicolon.append
    (conditionBalanced.append (semicolon.append incrementBalanced)))

end

/-- The text of a loop. -/
def joinLoop (header body : List Char) : List Char :=
  loopKeyword ++ '(' :: (header ++ ')' :: '{' :: (body ++ ['}']))

section
variable {header body : List Char} (headerBalanced : IsBalanced '(' ')' header)
  (bodyBalanced : IsBalanced '{' '}' body)
include headerBalanced bodyBalanced

theorem loopBlock_joinLoop : loopBlock (joinLoop header body) = .ok (joinLoop header body, []) := by
  have headerFound := headerBalanced.balanced? (by decide) ('{' :: (body ++ ['}']))
  have bodyFound := bodyBalanced.balanced? (by decide) []
  have lead : (joinLoop header body).takeWhile (· ≠ '(') = loopKeyword := rfl
  have fromHeader : (joinLoop header body).dropWhile (· ≠ '(') =
      '(' :: (header ++ ')' :: '{' :: (body ++ ['}'])) := rfl
  have noGap : ('{' :: (body ++ ['}'])).takeWhile isAsciiBlank = [] := rfl
  have fromBody : skipBlanks ('{' :: (body ++ ['}'])) = '{' :: (body ++ ['}']) := rfl
  simp only [loopBlock, lead, fromHeader, headerFound, noGap, fromBody, bodyFound]
  simp [joinLoop]

theorem loopText?_joinLoop {init condition increment : List Char}
    (parts : headerParts header = [init, condition, increment])
    (solid : ∀ part ∈ [init, condition, increment], part ≠ [] ∧ IsTrimmed part) :
    loopText? (joinLoop header body) = some ⟨init, condition, increment, body⟩ := by
  have headerFound := headerBalanced.balanced? (by decide) ('{' :: (body ++ ['}']))
  have bodyFound := bodyBalanced.balanced? (by decide) []
  have fromHeader : skipBlanks ((joinLoop header body).drop loopKeyword.length) =
      '(' :: (header ++ ')' :: '{' :: (body ++ ['}'])) := rfl
  have fromBody : skipBlanks ('{' :: (body ++ ['}'])) = '{' :: (body ++ ['}']) := rfl
  have inHeader : interior ('(' :: (header ++ [')'])) = header := by
    rw [interior, List.tail_cons, List.dropLast_concat]
  have inBody : interior ('{' :: (body ++ ['}'])) = body := by
    rw [interior, List.tail_cons, List.dropLast_concat]
  have filled : ∀ part ∈ [init, condition, increment], trim part ≠ [] := by
    intro part member
    rw [trim_eq_self_iff.mpr (solid part member).2]
    exact (solid part member).1
  have noneEmpty : ¬ (trim init = [] ∨ trim condition = [] ∨ trim increment = []) := by
    simpa [not_or] using filled
  rw [loopText?, fromHeader, headerFound]
  simp only [inHeader, parts, if_neg noneEmpty, fromBody, bodyFound, inBody]

end

theorem startsLoop_joinLoop (header body : List Char) :
    startsLoop (joinLoop header body) = true := by
  rw [startsLoop_iff]
  exact leadingWord_word isWordChar_of_mem_loopKeyword (by decide) _

theorem isTrimmed_joinLoop (header body : List Char) : IsTrimmed (joinLoop header body) := by
  have ends : joinLoop header body =
      'f' :: ('o' :: 'r' :: '(' :: (header ++ ')' :: '{' :: body) ++ ['}']) := by
    simp [joinLoop, loopKeyword]
  exact isTrimmed_of_ends ends (by decide) (by decide)

/-! ## One statement -/

theorem cut_simple {body : List Char} (trimmed : IsTrimmed (body ++ [';']))
    (simple : startsLoop (body ++ [';']) = false) (noSemicolon : ';' ∉ body) :
    cut (body ++ [';']) = ⟨[.simple (body ++ [';'])], [], none⟩ := by
  have noBlanks : skipBlanks (body ++ [';']) = body ++ [';'] := skipBlanks_eq_self trimmed.first
  rw [cut_of_throughSemicolon (by simp [noBlanks]) (by rw [noBlanks, simple])
    (by rw [noBlanks, throughSemicolon_of_not_mem noSemicolon]), cut_nil]
  rfl

theorem cut_loop {header body : List Char} (headerBalanced : IsBalanced '(' ')' header)
    (bodyBalanced : IsBalanced '{' '}' body) :
    cut (joinLoop header body) = ⟨[.loop (joinLoop header body)], [], none⟩ := by
  have noBlanks : skipBlanks (joinLoop header body) = joinLoop header body :=
    skipBlanks_eq_self (isTrimmed_joinLoop header body).first
  rw [cut_of_loopBlock (by rw [noBlanks]; exact List.cons_ne_nil _ _)
    (by rw [noBlanks, startsLoop_joinLoop])
    (by rw [noBlanks, loopBlock_joinLoop headerBalanced bodyBalanced]), cut_nil]
  rfl

end SceneScript.Script
