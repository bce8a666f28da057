import SceneScript.Proofs.Offset.Cut
import SceneScript.Script.Program

/-!
# Loops by offset

A loop is taken apart at the offsets of its delimiters: the header stands between the
parentheses, the body between the braces. The depth of parentheses in a header is a
signed number of 32 bits; a header that is not too long cannot drive it out of range,
whatever its parentheses are.
-/

set_option autoImplicit false

namespace SceneScript.Offset

open SceneScript.Text SceneScript.Script

/-! ## Headers -/

/-- A depth that fits into 32 bits. -/
def signedDepth (depth : Int) : Checked Int :=
  if -2147483648 ≤ depth ∧ depth < 2147483648 then .ok depth else .error .overflow

theorem signedDepth_of_short {depth : Int} (short : depth.natAbs < 2147483648) :
    signedDepth depth = .ok depth :=
  if_pos (by omega)

/-- Divides a header from its part at `start` on, where the remaining bytes begin at
`offset`. -/
def headerPartsFrom (header : List Char) : Int → Nat → Nat → List Char →
    Checked (List (List Char))
  | _, start, _, [] => do
    let part ← slice header start (size header)
    return [part]
  | depth, start, offset, byte :: rest =>
    if byte = '(' then do
      let depth ← signedDepth (depth + 1)
      headerPartsFrom header depth start (offset + 1) rest
    else if byte = ')' then do
      let depth ← signedDepth (depth - 1)
      headerPartsFrom header depth start (offset + 1) rest
    else if byte = ';' ∧ depth = 0 then do
      let part ← slice header start offset
      let parts ← headerPartsFrom header depth (offset + 1) (offset + 1) rest
      return part :: parts
    else headerPartsFrom header depth start (offset + 1) rest

def headerParts (header : List Char) : Checked (List (List Char)) :=
  headerPartsFrom header 0 0 0 (bytes header)

theorem natAbs_depthStep_le (c : Char) : (depthStep c).natAbs ≤ 1 := by
  rw [depthStep]
  split
  · exact Nat.le_refl 1
  split
  · exact Nat.le_refl 1
  · exact Nat.zero_le 1

theorem depthStep_of_not_isAscii {c : Char} (other : ¬ IsAscii c) : depthStep c = 0 := by
  have notOpening : c ≠ '(' := fun same => other (same ▸ by decide)
  have notClosing : c ≠ ')' := fun same => other (same ▸ by decide)
  rw [depthStep, if_neg notOpening, if_neg notClosing]

section
variable (header : List Char) (start offset : Nat) (rest : List Char)

theorem headerPartsFrom_cons {byte : Char} {depth : Int}
    (short : (depth + depthStep byte).natAbs < 2147483648)
    (inside : ¬ (byte = ';' ∧ depth = 0)) :
    headerPartsFrom header depth start offset (byte :: rest) =
      headerPartsFrom header (depth + depthStep byte) start (offset + 1) rest := by
  rw [headerPartsFrom]
  by_cases opening : byte = '('
  · have level : depthStep byte = 1 := if_pos opening
    rw [level] at short ⊢
    rw [if_pos opening, signedDepth_of_short short, ok_bind]
  by_cases closing : byte = ')'
  · have level : depthStep byte = -1 := by
      rw [closing]
      rfl
    rw [level] at short ⊢
    rw [if_neg opening, if_pos closing, Int.sub_eq_add_neg, signedDepth_of_short short, ok_bind]
  · have level : depthStep byte = 0 := by rw [depthStep, if_neg opening, if_neg closing]
    rw [if_neg opening, if_neg closing, if_neg inside, level, Int.add_zero]

/-- One character, of however many bytes, that does not end a part. -/
theorem headerPartsFrom_encode {c : Char} {depth : Int}
    (short : (depth + depthStep c).natAbs < 2147483648) (inside : ¬ (c = ';' ∧ depth = 0)) :
    headerPartsFrom header depth start offset (encode c ++ rest) =
      headerPartsFrom header (depth + depthStep c) start (offset + (encode c).length) rest := by
  by_cases ascii : IsAscii c
  · rw [encode_of_isAscii ascii]
    exact headerPartsFrom_cons header start offset rest short inside
  · rw [depthStep_of_not_isAscii ascii, Int.add_zero] at short ⊢
    refine scan_encode_of_not_isAscii (fun byte other offset rest => ?_) ascii offset rest
    have notSemicolon : byte ≠ ';' := fun same => other (same ▸ by decide)
    have level := depthStep_of_not_isAscii other
    rw [headerPartsFrom_cons header start offset rest (by omega) (fun both => notSemicolon both.1),
      level, Int.add_zero]

end

theorem foldr_consFirst_nil_cons (pending : List Char) (parts : List (List Char)) :
    pending.foldr consFirst ([] :: parts) = pending :: parts := by
  induction pending with
  | nil => rfl
  | cons c pending ih => rw [List.foldr_cons, ih, consFirst]

/-- Each byte changes the depth by one at most, so the depth stays in range as long as
it and the bytes that are left do together. -/
theorem headerPartsFrom_of_isPlace {header pending rest : List Char} {depth : Int} {start : Nat}
    (place : IsPlace header start (pending ++ rest))
    (short : depth.natAbs + size rest < 2147483648) :
    headerPartsFrom header depth start (start + size pending) (bytes rest) =
      .ok (pending.foldr consFirst (Script.headerPartsFrom depth rest)) := by
  induction rest generalizing pending depth start with
  | nil =>
      rw [List.append_nil] at place
      rw [bytes_nil, headerPartsFrom, place.slice_rest, Script.headerPartsFrom,
        foldr_consFirst_nil_cons]
      rfl
  | cons c rest ih =>
      have first := length_encode_pos c
      rw [size_cons] at short
      rw [bytes_cons, Script.headerPartsFrom]
      by_cases separates : c = ';' ∧ depth = 0
      · obtain ⟨rfl, rfl⟩ := separates
        have ascii : IsAscii ';' := by decide
        have behind : IsPlace header (start + size pending + 1) ([] ++ rest) :=
          place.add.succ ascii
        have more := @ih [] 0 _ behind (by omega)
        rw [size_nil, Nat.add_zero] at more
        rw [if_pos ⟨rfl, rfl⟩, encode_of_isAscii ascii, List.singleton_append, headerPartsFrom,
          if_neg (by decide), if_neg (by decide), if_pos ⟨rfl, rfl⟩, place.slice, ok_bind, more,
          foldr_consFirst_nil_cons]
        rfl
      · have level := natAbs_depthStep_le c
        have grown : IsPlace header start (pending ++ [c] ++ rest) := by
          rwa [List.append_assoc, List.singleton_append]
        have onward := @ih _ (depth + depthStep c) _ grown (by omega)
        rw [List.foldr_append, size_append, size_cons, size_nil, Nat.add_zero,
          ← Nat.add_assoc] at onward
        rw [if_neg separates, headerPartsFrom_encode header _ _ _ (by omega) separates, onward]
        rfl

theorem headerParts_of_short {header : List Char} (short : size header < 2147483648) :
    headerParts header = .ok (Script.headerParts header) :=
  headerPartsFrom_of_isPlace (isPlace_zero ([] ++ header)) (by simpa using short)

/-! ## The parts of a loop -/

/-- The body behind a header that ends at the given offset. It ends the statement. -/
def bodyText (statement : List Char) (headerEnd : Nat) : Checked (Option (List Char)) := do
  let brace ← skipBlanks (bytes statement) headerEnd
  match ← matchingClose '{' '}' (bytes statement) brace with
  | none => return none
  | some bodyEnd =>
    if bodyEnd ≠ size statement then return none
    else
      let bodyStop ← decrement bodyEnd
      let body ← slice statement (brace + 1) bodyStop
      return some body

/-- Takes a loop apart. The keyword takes three bytes. -/
def loopText (statement : List Char) : Checked (Option LoopText) := do
  let opening ← skipBlanks (bytes statement) 3
  match ← matchingClose '(' ')' (bytes statement) opening with
  | none => return none
  | some headerEnd =>
    let headerStop ← decrement headerEnd
    let header ← slice statement (opening + 1) headerStop
    match ← headerParts header with
    | [init, condition, increment] =>
      if trim init = [] ∨ trim condition = [] ∨ trim increment = [] then return none
      else
        let body? ← bodyText statement headerEnd
        return body?.map fun body => ⟨init, condition, increment, body⟩
    | _ => return none

/-- What stands between two delimiters is taken out between two places. -/
theorem exists_slice_interior {opening closing : Char} (asciiOpening : IsAscii opening)
    (asciiClosing : IsAscii closing) (distinct : opening ≠ closing)
    {text rest block after : List Char} {start : Nat} (place : IsPlace text start rest)
    (found : balanced? opening closing rest = some (block, after)) :
    ∃ stop, decrement (start + size block) = .ok stop ∧
      slice text (start + 1) stop = .ok (Script.interior block) := by
  obtain ⟨inner, -, rfl, rfl⟩ := (balanced?_eq_some_iff distinct).mp found
  have sizes : start + size (opening :: (inner ++ [closing])) = start + 1 + size inner + 1 := by
    simp only [size_cons, size_append, size_nil, encode_of_isAscii asciiOpening,
      encode_of_isAscii asciiClosing, List.length_singleton]
    omega
  have inside : IsPlace text (start + 1) (inner ++ ([closing] ++ after)) := by
    apply IsPlace.succ asciiOpening
    rwa [List.cons_append, List.append_assoc] at place
  refine ⟨start + 1 + size inner, by rw [sizes, decrement_succ], ?_⟩
  rw [inside.slice, Script.interior, List.tail_cons, List.dropLast_concat]

theorem size_le_of_slice {text part : List Char} {start stop : Nat}
    (taken : slice text start stop = .ok part) : size part ≤ size text := by
  obtain ⟨before, after, rfl, -, -⟩ := slice_eq_ok_iff.mp taken
  rw [size_append, size_append]
  omega

theorem bodyText_of_isPlace {statement afterHeader : List Char} {headerEnd : Nat}
    (place : IsPlace statement headerEnd afterHeader) :
    bodyText statement headerEnd =
      .ok (match balanced? '{' '}' (Text.skipBlanks afterHeader) with
        | some (block, []) => some (Script.interior block)
        | _ => none) := by
  have atBody := place.skipBlanks
  have braces := matchingClose_of_isPlace (by decide : IsAscii '{') (by decide : IsAscii '}') atBody
  simp only [bodyText, skipBlanks_of_isPlace place, ok_bind, braces]
  cases bodyFound : balanced? '{' '}' (Text.skipBlanks afterHeader) with
  | none => rfl
  | some found =>
      obtain ⟨block, behind⟩ := found
      obtain ⟨bodyStop, stopped, sliced⟩ :=
        exists_slice_interior (by decide) (by decide) (by decide) atBody bodyFound
      have sizes := (IsPlace.add (append_of_balanced? bodyFound ▸ atBody)).add_size
      cases behind with
      | nil =>
          rw [size_nil, Nat.add_zero] at sizes
          simp only [Option.map_some, sizes, ne_eq, not_true_eq_false, if_false]
          rw [← sizes, stopped, ok_bind, sliced]
          rfl
      | cons c behind =>
          have first := length_encode_pos c
          rw [size_cons] at sizes
          simp only [Option.map_some]
          rw [if_pos (by omega)]
          rfl

theorem isPlace_of_startsLoop {statement : List Char}
    (starts : Text.startsLoop statement = true) :
    IsPlace statement 3 (statement.drop loopKeyword.length) := by
  have whole := leadingWord_append_afterWord statement
  rw [startsLoop_iff.mp starts] at whole
  rw [← whole, List.drop_left]
  exact IsPlace.add (isPlace_zero _)

theorem loopText_of_startsLoop {statement : List Char} (starts : Text.startsLoop statement = true)
    (short : size statement < 2147483648) :
    loopText statement = .ok (loopText? statement) := by
  have atKeyword := isPlace_of_startsLoop starts
  have atHeader := atKeyword.skipBlanks
  have parentheses := matchingClose_of_isPlace (by decide : IsAscii '(') (by decide : IsAscii ')')
    atHeader
  simp only [loopText, loopText?, skipBlanks_of_isPlace atKeyword, ok_bind, parentheses]
  cases headerFound :
      balanced? '(' ')' (Text.skipBlanks (statement.drop loopKeyword.length)) with
  | none => rfl
  | some found =>
      obtain ⟨header, afterHeader⟩ := found
      obtain ⟨headerStop, stopped, sliced⟩ :=
        exists_slice_interior (by decide) (by decide) (by decide) atHeader headerFound
      have behindHeader := IsPlace.add (append_of_balanced? headerFound ▸ atHeader)
      simp only [Option.map_some, stopped, ok_bind, sliced, bodyText_of_isPlace behindHeader,
        headerParts_of_short (Nat.lt_of_le_of_lt (size_le_of_slice sliced) short)]
      generalize Script.headerParts (Script.interior header) = parts
      obtain _ | ⟨init, _ | ⟨condition, _ | ⟨increment, _ | ⟨more, rest⟩⟩⟩⟩ := parts
      · rfl
      · rfl
      · rfl
      · dsimp only
        split
        · rfl
        · obtain _ | ⟨block, _ | ⟨c, behind⟩⟩ :=
            balanced? '{' '}' (Text.skipBlanks afterHeader) <;> rfl
      · rfl

end SceneScript.Offset
