import SceneScript.Proofs.Offset.Scan
import SceneScript.Proofs.Script.Cut
import SceneScript.Proofs.Script.Normal

/-!
# Cutting a script by offset

A script is brought to normal form and cut into its statements with offsets into its
bytes. Every part is taken out between two places, so the script is cut as the text
is.
-/

set_option autoImplicit false

namespace SceneScript.Offset

open SceneScript.Text SceneScript.Script

/-! ## Normal form -/

/-- The offset of the first comment in bytes that start at the given offset. -/
def commentFrom : Nat → List Char → Option Nat
  | offset, '/' :: '/' :: _ => some offset
  | offset, _ :: rest => commentFrom (offset + 1) rest
  | _, [] => none

/-- What stands on a line before a comment, trimmed. -/
def codeOf (line : List Char) : Checked (List Char) :=
  match commentFrom 0 (bytes line) with
  | none => return trim line
  | some stop => do
    let code ← slice line 0 stop
    return trim code

def normalize (source : List Char) : Checked (List Char) := do
  let lines ← (source.splitOn '\n').mapM codeOf
  return [' '].intercalate (lines.filter (· ≠ []))

theorem commentFrom_cons {byte : Char} {rest : List Char}
    (noMark : byte = '/' → rest.head? ≠ some '/') (offset : Nat) :
    commentFrom offset (byte :: rest) = commentFrom (offset + 1) rest := by
  rw [commentFrom]
  intro more slash behind
  exact noMark slash (by rw [behind]; rfl)

theorem commentFrom_encode_of_not_isAscii {c : Char} (other : ¬ IsAscii c) (offset : Nat)
    (rest : List Char) :
    commentFrom offset (encode c ++ rest) = commentFrom (offset + (encode c).length) rest := by
  refine scan_encode_of_not_isAscii (fun byte other offset rest => ?_) other offset rest
  have notSlash : byte ≠ '/' := fun same => other (same ▸ by decide)
  exact commentFrom_cons (fun slash => absurd slash notSlash) offset

theorem commentFrom_bytes (offset : Nat) (line : List Char) :
    commentFrom offset (bytes line) =
      if beforeComment line = line then none else some (offset + size (beforeComment line)) := by
  fun_induction beforeComment line generalizing offset with
  | case1 rest =>
      have slash : encode '/' = ['/'] := encode_of_isAscii (by decide)
      simp [slash, commentFrom]
  | case2 c rest noMark ih =>
      have step : commentFrom offset (bytes (c :: rest)) =
          commentFrom (offset + (encode c).length) (bytes rest) := by
        rw [bytes_cons]
        by_cases ascii : IsAscii c
        · rw [encode_of_isAscii ascii, List.singleton_append]
          refine commentFrom_cons (fun slash behind => ?_) offset
          rw [head?_bytes_eq_some_iff (by decide), List.head?_eq_some_iff] at behind
          obtain ⟨more, rfl⟩ := behind
          exact noMark more slash rfl
        · exact commentFrom_encode_of_not_isAscii ascii offset (bytes rest)
      rw [step, ih]
      simp only [List.cons.injEq, true_and, size_cons, Nat.add_assoc]
  | case3 => rfl

theorem codeOf_eq_ok (line : List Char) : codeOf line = .ok (trim (beforeComment line)) := by
  rw [codeOf, commentFrom_bytes]
  by_cases whole : beforeComment line = line
  · rw [if_pos whole, whole]
    rfl
  · obtain ⟨comment, divided⟩ := beforeComment_begins line
    have place : IsPlace line 0 (beforeComment line ++ comment) := by
      rw [divided]
      exact isPlace_zero line
    simp only [if_neg whole, place.slice, ok_bind, pure_eq_ok]

theorem normalize_eq_ok (source : List Char) :
    normalize source = .ok (Script.normalize source) := by
  have lines : (source.splitOn '\n').mapM codeOf =
      .ok ((source.splitOn '\n').map fun line => trim (beforeComment line)) := by
    rw [funext codeOf_eq_ok]
    exact List.mapM_pure
  rw [normalize, lines]
  rfl

/-! ## The end of a piece -/

def startsLoop (text : List Char) : Bool :=
  loopKeyword.isPrefixOf text && !((bytes text)[3]?.any isWordChar)

theorem startsLoop_eq (text : List Char) : startsLoop text = Text.startsLoop text := by
  rw [startsLoop, Text.startsLoop]
  cases starts : loopKeyword.isPrefixOf text with
  | false => rfl
  | true =>
      obtain ⟨rest, rfl⟩ := List.isPrefixOf_iff_prefix.mp starts
      have place : IsPlace (loopKeyword ++ rest) 3 rest := IsPlace.add (isPlace_zero _)
      rw [place.head?, any_head?_bytes isAsciiClass_isWordChar, List.drop_left]

/-- The offset behind the loop that starts at the given offset. -/
def loopEnd (bytes : List Char) (start : Nat) : Checked (Except CutFault Nat) := do
  match ← findByte '(' bytes start with
  | none => return .error .noHeader
  | some opening =>
    match ← matchingClose '(' ')' bytes opening with
    | none => return .error .openHeader
    | some headerEnd =>
      let brace ← skipBlanks bytes headerEnd
      if bytes[brace]? ≠ some '{' then return .error .noBody
      else
        match ← matchingClose '{' '}' bytes brace with
        | none => return .error .openBody
        | some stop => return .ok stop

/-- The offset behind the piece that starts at the given offset, or the reason why
cutting ends there. -/
def pieceEnd (code : List Char) (start : Nat) : Checked (Except (Option CutFault) Nat) := do
  let text ← slice code start (size code)
  if startsLoop text then
    match ← loopEnd (bytes code) start with
    | .error fault => return .error (some fault)
    | .ok stop => return .ok stop
  else
    match ← findByte ';' (bytes code) start with
    | none => return .error none
    | some semicolon => return .ok (semicolon + 1)

/-- The statements from an offset on, and why cutting ended before a loop, if it did. -/
def cutFrom (code : List Char) (offset : Nat) :
    Checked (List (List Char) × Option CutFault) := do
  let start ← skipBlanks (bytes code) offset
  if start < size code then
    match ← pieceEnd code start with
    | .error halted => return ([], halted)
    | .ok stop =>
      if _advances : offset < stop ∧ stop ≤ size code then
        let piece ← slice code start stop
        let (statements, halted) ← cutFrom code stop
        return (trim piece :: statements, halted)
      else .error .stuck
  else return ([], none)
termination_by size code - offset

theorem loopEnd_of_isPlace {text rest : List Char} {start : Nat} (place : IsPlace text start rest) :
    loopEnd (bytes text) start =
      .ok ((loopBlock rest).map fun parts => start + size parts.1) := by
  have found := findByte_of_isPlace place (by decide : IsAscii '(')
  have atHeader := place.takeUntil '('
  simp only [loopEnd, loopBlock, found, ok_bind]
  by_cases none : rest.dropWhile (· ≠ '(') = []
  · simp only [none, if_true]
    rfl
  simp only [none, if_false, ok_bind,
    matchingClose_of_isPlace (by decide : IsAscii '(') (by decide : IsAscii ')') atHeader]
  cases headerFound : balanced? '(' ')' (rest.dropWhile (· ≠ '(')) with
  | none => rfl
  | some parts =>
      obtain ⟨header, afterHeader⟩ := parts
      have behind := IsPlace.add (append_of_balanced? headerFound ▸ atHeader)
      have atBody := behind.skipBlanks
      simp only [Option.map_some, skipBlanks_of_isPlace behind, ok_bind, atBody.head?, ne_eq,
        head?_bytes_eq_some_iff (by decide : IsAscii '{'),
        matchingClose_of_isPlace (by decide : IsAscii '{') (by decide : IsAscii '}') atBody]
      by_cases body : (Text.skipBlanks afterHeader).head? = some '{'
      · simp only [body, not_true_eq_false, if_false]
        cases bodyFound : balanced? '{' '}' (Text.skipBlanks afterHeader) with
        | none => rfl
        | some parts =>
            simp only [Option.map_some, pure_eq_ok, Except.map, size_append, Nat.add_assoc,
              size_takeWhile isAsciiClass_isAsciiBlank]
      · simp only [body, not_false_eq_true, if_true]
        rfl

theorem pieceEnd_of_loop {code rest : List Char} {start : Nat} (place : IsPlace code start rest)
    (starts : Text.startsLoop rest = true) :
    pieceEnd code start =
      .ok (match loopBlock rest with
        | .error fault => .error (some fault)
        | .ok parts => .ok (start + size parts.1)) := by
  simp only [pieceEnd, place.slice_rest, ok_bind, startsLoop_eq, starts, if_true,
    loopEnd_of_isPlace place]
  cases loopBlock rest <;> rfl

theorem pieceEnd_of_simple {code rest : List Char} {start : Nat} (place : IsPlace code start rest)
    (simple : Text.startsLoop rest = false) :
    pieceEnd code start =
      .ok (match throughSemicolon rest with
        | none => .error none
        | some parts => .ok (start + size parts.1)) := by
  have found := findByte_of_isPlace place (by decide : IsAscii ';')
  simp only [pieceEnd, place.slice_rest, ok_bind, startsLoop_eq, simple, Bool.false_eq_true,
    if_false, found, throughSemicolon]
  cases dropped : rest.dropWhile (· ≠ ';') with
  | nil => rfl
  | cons semicolon after =>
      have one : encode ';' = [';'] := encode_of_isAscii (by decide)
      rw [eq_of_dropWhile_eq_cons dropped]
      simp [one, Nat.add_assoc]

/-! ## All pieces -/

/-- A piece that is not empty leads to a place further on. -/
theorem cutFrom_of_pieceEnd {code piece rest : List Char} {offset start : Nat}
    (skipped : skipBlanks (bytes code) offset = .ok start) (later : offset ≤ start)
    (place : IsPlace code start (piece ++ rest)) (solid : piece ≠ [])
    (ends : pieceEnd code start = .ok (.ok (start + size piece))) :
    cutFrom code offset = do
      let (statements, halted) ← cutFrom code (start + size piece)
      return (trim piece :: statements, halted) := by
  have sizes := place.add_size
  have advances : 0 < size piece :=
    Nat.lt_of_lt_of_le (List.length_pos_of_ne_nil solid) (length_le_size piece)
  rw [size_append] at sizes
  rw [cutFrom, skipped, ok_bind, if_pos (by omega), ends, ok_bind]
  simp only [dif_pos (show offset < start + size piece ∧ start + size piece ≤ size code by omega),
    place.slice, ok_bind]

theorem cutFrom_of_halted {code rest : List Char} {offset start : Nat} {halted : Option CutFault}
    (skipped : skipBlanks (bytes code) offset = .ok start) (place : IsPlace code start rest)
    (solid : rest ≠ []) (ends : pieceEnd code start = .ok (.error halted)) :
    cutFrom code offset = .ok ([], halted) := by
  rw [cutFrom, skipped, ok_bind, if_pos (place.lt_size_iff.mpr solid), ends]
  rfl

theorem ne_nil_of_length_lt {piece rest text : List Char} (divided : piece ++ rest = text)
    (shorter : rest.length < text.length) : piece ≠ [] := by
  rintro rfl
  rw [← divided] at shorter
  exact Nat.lt_irrefl _ shorter

theorem cutFrom_of_isPlace {code rest : List Char} {offset : Nat}
    (place : IsPlace code offset rest) :
    cutFrom code offset = .ok ((cut rest).statements, (cut rest).halted) := by
  fun_induction cut rest generalizing offset with
  | case1 rest text =>
      rename_i empty
      have ended := mt place.skipBlanks.lt_size_iff.mp (not_not.mpr empty)
      rw [cutFrom, skipBlanks_of_isPlace place, ok_bind, if_neg ended]
      rfl
  | case2 rest text solid starts fault =>
      rename_i failed
      refine cutFrom_of_halted (skipBlanks_of_isPlace place) place.skipBlanks solid ?_
      rw [pieceEnd_of_loop place.skipBlanks starts, failed]
  | case3 rest text solid starts block after found =>
      rename_i ih
      have divided : block ++ after = Text.skipBlanks rest := append_of_loopBlock found
      have atText := place.skipBlanks
      rw [← divided] at atText
      have ends := pieceEnd_of_loop place.skipBlanks starts
      rw [found] at ends
      rw [cutFrom_of_pieceEnd (skipBlanks_of_isPlace place) (Nat.le_add_right _ _) atText
        (ne_nil_of_length_lt divided (length_lt_of_loopBlock found)) ends, ih atText.add]
      rfl
  | case4 rest text solid simple =>
      rename_i failed
      refine cutFrom_of_halted (skipBlanks_of_isPlace place) place.skipBlanks solid ?_
      rw [pieceEnd_of_simple place.skipBlanks (by simpa using simple), failed]
  | case5 rest text solid simple statement after found =>
      rename_i ih
      have divided : statement ++ after = Text.skipBlanks rest := append_of_throughSemicolon found
      have atText := place.skipBlanks
      rw [← divided] at atText
      have ends := pieceEnd_of_simple place.skipBlanks (by simpa using simple)
      rw [found] at ends
      rw [cutFrom_of_pieceEnd (skipBlanks_of_isPlace place) (Nat.le_add_right _ _) atText
        (ne_nil_of_length_lt divided (length_lt_of_throughSemicolon found)) ends, ih atText.add]
      rfl

end SceneScript.Offset
