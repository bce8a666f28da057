import Mathlib.Order.Nat
import SceneScript.Proofs.Offset.Scan
import SceneScript.Proofs.Text.Delimiter

/-!
# The first balance of delimiters

The search for the end of a bracketed stretch counts levels. Its result can be said
without levels: the end is the first index behind the start at which as many delimiters
are closed as are opened. Before that index more are opened than closed, so the count
of levels is never taken below zero.
-/

set_option autoImplicit false

namespace SceneScript.Text

variable {α : Type} [DecidableEq α]

/-- The stretch from `start` to `stop` is not empty, and as many of its elements open a
level as close one. -/
structure BalancesAt (opening closing : α) (text : List α) (start stop : Nat) : Prop where
  behind : start < stop
  inside : stop ≤ text.length
  equal : (text.extract start stop).count opening = (text.extract start stop).count closing

theorem count_take_succ_le (x : α) (text : List α) (length : Nat) :
    (text.take (length + 1)).count x ≤ (text.take length).count x + 1 := by
  have single : (text[length]?.toList).count x ≤ 1 := by
    cases text[length]? with
    | none => exact Nat.zero_le 1
    | some last => exact List.count_le_length
  rw [List.take_add_one, List.count_append]
  omega

/-- The number of open levels falls by one at most from element to element, so it
cannot fall below zero without being zero before. -/
theorem closesAt_iff_isLeast {opening closing : α} {depth count : Nat} {text : List α} :
    ClosesAt opening closing depth text count ↔
      IsLeast {length | length ≤ text.length ∧
        (text.take length).count closing = (text.take length).count opening + depth} count := by
  constructor
  · intro closes
    refine ⟨⟨closes.inside, closes.closed⟩, fun length member => ?_⟩
    have closed := member.2
    apply Nat.le_of_not_lt
    intro shorter
    have before := closes.first length shorter
    omega
  · intro isLeast
    obtain ⟨⟨inside, closed⟩, least⟩ := isLeast
    have notBefore : ∀ length < count,
        (text.take length).count closing ≠ (text.take length).count opening + depth := by
      intro length shorter same
      have behind := least ⟨by omega, same⟩
      omega
    refine ⟨inside, closed, fun shorter lt => ?_⟩
    induction shorter with
    | zero =>
        have atStart := notBefore 0 lt
        simp only [List.take_zero, List.count_nil] at atStart ⊢
        omega
    | succ shorter ih =>
        have before := ih (Nat.lt_of_succ_lt lt)
        have here := notBefore (shorter + 1) lt
        have oneMore := count_take_succ_le closing text shorter
        have noFewer : (text.take shorter).count opening ≤ (text.take (shorter + 1)).count opening :=
          (List.take_sublist_take_left (Nat.le_succ shorter)).count_le opening
        omega

/-! ## The end from an opening delimiter -/

section
variable {opening closing : α} {text rest : List α} {start : Nat}
  (atOpening : text.drop start = opening :: rest)
include atOpening

theorem balancesAt_iff (distinct : opening ≠ closing) (count : Nat) :
    BalancesAt opening closing text start (start + count + 1) ↔
      count ≤ rest.length ∧
        (rest.take count).count closing = (rest.take count).count opening + 1 := by
  have size : text.length = start + rest.length + 1 := by
    have dropped := congrArg List.length atOpening
    rw [List.length_drop, List.length_cons] at dropped
    omega
  have stretch : text.extract start (start + count + 1) = opening :: rest.take count := by
    rw [List.extract_eq_take_drop, atOpening, Nat.add_assoc, Nat.add_sub_cancel_left,
      List.take_succ_cons]
  constructor
  · intro balances
    have inside := balances.inside
    have equal := balances.equal
    rw [stretch, List.count_cons_self, List.count_cons_of_ne distinct] at equal
    exact ⟨by omega, equal.symm⟩
  · intro closes
    obtain ⟨inside, closed⟩ := closes
    refine ⟨by omega, by omega, ?_⟩
    rw [stretch, List.count_cons_self, List.count_cons_of_ne distinct, closed]

theorem isLeast_balancesAt_iff (distinct : opening ≠ closing) {count : Nat} :
    IsLeast {stop | BalancesAt opening closing text start stop} (start + count + 1) ↔
      ClosesAt opening closing 1 rest count := by
  have shift := balancesAt_iff atOpening distinct
  rw [closesAt_iff_isLeast]
  constructor
  · intro isLeast
    obtain ⟨balances, least⟩ := isLeast
    refine ⟨(shift _).mp balances, fun length closed => ?_⟩
    have behind := least ((shift _).mpr closed)
    omega
  · intro isLeast
    obtain ⟨closed, least⟩ := isLeast
    refine ⟨(shift _).mpr closed, fun stop balances => ?_⟩
    obtain ⟨length, rfl⟩ := Nat.exists_eq_add_of_lt balances.behind
    have behind := least ((shift _).mp balances)
    omega

theorem matchingClose_of_opening :
    matchingClose text start opening closing =
      (closingLength opening closing 1 rest).map fun count => start + count + 1 := by
  have opens : text[start]? = some opening := by
    rw [← List.head?_drop, atOpening, List.head?_cons]
  rw [matchingClose, if_pos opens, atOpening, closingLength, if_pos rfl, Option.map_map]
  rfl

end

theorem exists_drop_of_getElem? {α : Type} {text : List α} {start : Nat} {x : α}
    (found : text[start]? = some x) : ∃ rest, text.drop start = x :: rest := by
  rw [← List.head?_drop] at found
  exact List.head?_eq_some_iff.mp found

theorem matchingClose_eq_some_iff {opening closing : α} (distinct : opening ≠ closing)
    {text : List α} {start stop : Nat} :
    matchingClose text start opening closing = some stop ↔
      text[start]? = some opening ∧
        IsLeast {stop | BalancesAt opening closing text start stop} stop := by
  by_cases opens : text[start]? = some opening
  · obtain ⟨rest, atOpening⟩ := exists_drop_of_getElem? opens
    simp only [matchingClose_of_opening atOpening, Option.map_eq_some_iff,
      closingLength_eq_some_iff distinct Nat.one_pos, ← isLeast_balancesAt_iff atOpening distinct,
      opens, true_and]
    constructor
    · intro found
      obtain ⟨count, least, rfl⟩ := found
      exact least
    · intro least
      obtain ⟨count, rfl⟩ := Nat.exists_eq_add_of_lt least.1.behind
      exact ⟨count, least, rfl⟩
  · simp only [matchingClose, opens, if_false, reduceCtorEq, false_and]

theorem matchingClose_eq_none_iff {opening closing : α} (distinct : opening ≠ closing)
    {text : List α} {start : Nat} :
    matchingClose text start opening closing = none ↔
      text[start]? ≠ some opening ∨ ¬ ∃ stop, BalancesAt opening closing text start stop := by
  rw [Option.eq_none_iff_forall_ne_some, ← not_and_or]
  constructor
  · intro missing both
    obtain ⟨opens, balanced⟩ := both
    classical
    exact missing _ ((matchingClose_eq_some_iff distinct).mpr ⟨opens, Nat.isLeast_find balanced⟩)
  · intro missing stop found
    obtain ⟨opens, least⟩ := (matchingClose_eq_some_iff distinct).mp found
    exact missing ⟨opens, stop, least.1⟩

end SceneScript.Text

namespace SceneScript.Offset

open SceneScript.Text

/-! ## The count of levels -/

section
variable {α : Type} [DecidableEq α] {code : α → Char} (injective : Function.Injective code)
  (opening closing : α)
include injective

/-- The search with a count that must not fall below zero, over any elements that are
told apart by characters. -/
theorem closeFrom_map {depth : Nat} (isOpen : 0 < depth) (offset : Nat) (text : List α) :
    closeFrom (code opening) (code closing) depth offset (text.map code) =
      .ok ((closingLength opening closing depth text).map (offset + ·)) := by
  induction text generalizing depth offset with
  | nil => rfl
  | cons x text ih =>
      have behind : ∀ found : Option Nat, Except.ok (found.map (offset + 1 + ·)) =
          (.ok ((found.map (· + 1)).map (offset + ·)) : Checked (Option Nat)) := by
        intro found
        cases found with
        | none => rfl
        | some count => simp only [Option.map_some, Nat.add_assoc, Nat.add_comm 1]
      simp only [List.map_cons, closeFrom, closingLength, injective.eq_iff]
      by_cases opens : x = opening
      · simp only [if_pos opens]
        rw [ih (Nat.succ_pos depth), behind]
      by_cases closes : x = closing
      · -- A level is open as long as the search goes on, so one can be closed.
        obtain ⟨depth, rfl⟩ := Nat.exists_eq_succ_of_ne_zero (Nat.ne_of_gt isOpen)
        simp only [if_neg opens, if_pos closes, decrement_succ, ok_bind]
        by_cases last : depth = 0
        · simp [last]
        · rw [if_neg last, if_neg (by omega), ih (Nat.pos_of_ne_zero last), behind,
            Nat.succ_sub_one]
      · simp only [if_neg opens, if_neg closes]
        rw [ih isOpen, behind]

theorem matchingClose_map (text : List α) (start : Nat) :
    matchingClose (code opening) (code closing) (text.map code) start =
      .ok (Text.matchingClose text start opening closing) := by
  have sameStart : (text.map code)[start]? = some (code opening) ↔ text[start]? = some opening := by
    rw [List.getElem?_map, ← Option.map_some, (Option.map_injective injective).eq_iff]
  by_cases opens : text[start]? = some opening
  · obtain ⟨rest, atOpening⟩ := exists_drop_of_getElem? opens
    have inside : start ≤ (text.map code).length := by
      rw [List.length_map]
      exact Nat.le_of_lt (List.getElem?_eq_some_iff.mp opens).1
    -- The opening delimiter itself takes the count to one.
    rw [matchingClose, if_pos (sameStart.mpr opens), bytesFrom, if_pos inside, ok_bind,
      ← List.map_drop, atOpening, List.map_cons, closeFrom, if_pos rfl,
      closeFrom_map injective opening closing Nat.one_pos, matchingClose_of_opening atOpening]
    simp only [Nat.add_assoc, Nat.add_comm 1]
  · rw [matchingClose, if_neg (mt sameStart.mp opens), Text.matchingClose, if_neg opens]
    rfl

end

theorem injective_ofUInt8 : Function.Injective Char.ofUInt8 := by
  intro left right same
  apply UInt8.toNat_inj.mp
  rw [← toNat_ofUInt8, same, toNat_ofUInt8]

/-- The end of a bracketed stretch of bytes is the first index behind its start at which
as many delimiters are closed as are opened. There is no end if no opening delimiter
stands at the start or if there is no such index. The search by offset, for which a byte
is the character with the same number, finds the same end and never takes its count of
levels below zero. -/
theorem matchingClose_is_first_balance (bytes : List UInt8) (start : Nat)
    {opening closing : UInt8} (distinct : opening ≠ closing) :
    (∀ stop, Text.matchingClose bytes start opening closing = some stop ↔
      bytes[start]? = some opening ∧
        IsLeast {stop | BalancesAt opening closing bytes start stop} stop) ∧
    (Text.matchingClose bytes start opening closing = none ↔
      bytes[start]? ≠ some opening ∨
        ¬ ∃ stop, BalancesAt opening closing bytes start stop) ∧
    matchingClose (Char.ofUInt8 opening) (Char.ofUInt8 closing) (bytes.map Char.ofUInt8) start =
      .ok (Text.matchingClose bytes start opening closing) :=
  ⟨fun _ => matchingClose_eq_some_iff distinct, matchingClose_eq_none_iff distinct,
    matchingClose_map injective_ofUInt8 opening closing bytes start⟩

/-- A stretch inside another one, and a delimiter that is never closed. -/
theorem matchingClose_is_first_balance_of_nested :
    let opening := '('.toUInt8
    let closing := ')'.toUInt8
    let bytes := "(a(b)c)d(".toList.map Char.toUInt8
    opening ≠ closing ∧
      IsLeast {stop | BalancesAt opening closing bytes 0 stop} 7 ∧
      IsLeast {stop | BalancesAt opening closing bytes 2 stop} 5 ∧
      (¬ ∃ stop, BalancesAt opening closing bytes 8 stop) ∧
      Text.matchingClose bytes 20 opening closing = none := by
  intro opening closing bytes
  have distinct : opening ≠ closing := by decide
  have outer := matchingClose_is_first_balance bytes 0 distinct
  have inner := matchingClose_is_first_balance bytes 2 distinct
  have neverClosed := matchingClose_is_first_balance bytes 8 distinct
  have behindEnd := matchingClose_is_first_balance bytes 20 distinct
  refine ⟨distinct, ((outer.1 7).mp (by decide)).2, ((inner.1 5).mp (by decide)).2, ?_,
    behindEnd.2.1.mpr (.inl (by decide))⟩
  exact (neverClosed.2.1.mp (by decide)).resolve_left (by decide)

end SceneScript.Offset
