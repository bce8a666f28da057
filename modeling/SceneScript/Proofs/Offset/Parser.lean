import SceneScript.Expr.Parser
import SceneScript.Proofs.Offset.Lexer

/-!
# Trees by position

The parser stands at an index of a list of items that ends with an item for the end
of the clause. It counts by hand how deep it is inside of parentheses, minus signs and
assignments, and how many operators there are. It never leaves the list, and each
step out of a level was a step into it before.
-/

set_option autoImplicit false

namespace SceneScript.Offset

/-- Where a parser stands. -/
structure Position where
  index : Nat
  depth : Nat
  operators : Nat

/-- A value or a fault of the clause, unless there is a trap. -/
abbrev Outcome := ExceptT ClauseFault Checked

/-- Reads an expression and gives the position behind it. -/
abbrev Parser := List Item → Position → Outcome (Expr × Position)

/-- The parsers for what stands one step further in. -/
structure Inner where
  clause : Parser
  unary : Parser

def Item.unexpected (item : Item) (expected : Expected) : ClauseFault :=
  ⟨item.column, .unexpected expected item.lexeme⟩

namespace Position

/-- The item at a position. -/
def next (position : Position) (items : List Item) : Outcome Item :=
  ExceptT.lift (itemAt items position.index)

/-- The position behind the next item. The end of the clause is not left. -/
def advance (position : Position) (items : List Item) : Outcome Position := do
  let _ ← position.next items
  if position.index + 1 < items.length then
    return { position with index := position.index + 1 }
  else return position

/-- One step further in. -/
def descend (position : Position) (items : List Item) : Outcome Position := do
  if maxNesting < position.depth + 1 then
    let item ← position.next items
    throw ⟨item.column, .nestedTooDeeply⟩
  else return { position with depth := position.depth + 1 }

/-- One step out again. -/
def ascend (position : Position) : Outcome Position := do
  let depth ← ExceptT.lift (decrement position.depth)
  return { position with depth }

def countOperator (position : Position) (items : List Item) : Outcome Position := do
  if maxOperators < position.operators + 1 then
    let item ← position.next items
    throw ⟨item.column, .tooManyOperators⟩
  else return { position with operators := position.operators + 1 }

end Position

namespace Parser

/-- A parser that is never used. -/
def stuck : Parser := fun _ _ => ExceptT.lift (.error .stuck)

/-- Reads what stands one step further in. -/
def within (parser : Parser) : Parser := fun items position => do
  let position ← position.descend items
  let (expr, position) ← parser items position
  let position ← position.ascend
  return (expr, position)

/-- The given expression, in front of a closing parenthesis. -/
def closed (expr : Expr) : Parser := fun items position => do
  let item ← position.next items
  match item.lexeme with
  | some .closing =>
    let position ← position.advance items
    return (expr, position)
  | _ => throw (item.unexpected .closing)

def primary (inner : Inner) : Parser := fun items position => do
  let item ← position.next items
  match item.lexeme with
  | some (.number value) =>
    let position ← position.advance items
    return (.number value, position)
  | some (.name name) =>
    let position ← position.advance items
    return (.var name item.column, position)
  | some .opening =>
    let position ← position.advance items
    let (expr, position) ← within inner.clause items position
    closed expr items position
  | _ => throw (item.unexpected .expression)

def unary (inner : Inner) : Parser := fun items position => do
  let item ← position.next items
  match item.lexeme with
  | some (.operator .sub) =>
    let position ← position.advance items
    let position ← position.countOperator items
    let (operand, position) ← within inner.unary items position
    return (.neg operand, position)
  | _ => primary inner items position

/-- The operator of the given precedence that an item holds. -/
def operator? (precedence : Precedence) : Option Lexeme → Option BinaryOp
  | some (.operator op) => if op.precedence = precedence then some op else none
  | _ => none

/-- Goes on with operators of one precedence. The steps do not run out before the
operators do. -/
def chainFrom (operand : Parser) (precedence : Precedence) : Nat → Expr → Parser
  | 0, _ => stuck
  | steps + 1, left => fun items position => do
    let item ← position.next items
    match operator? precedence item.lexeme with
    | none => return (left, position)
    | some op =>
      let position ← position.advance items
      let position ← position.countOperator items
      let (right, position) ← operand items position
      chainFrom operand precedence steps (.binary op item.column left right) items position

def chain (operand : Parser) (precedence : Precedence) : Parser := fun items position => do
  let (left, position) ← operand items position
  chainFrom operand precedence (maxOperators + 1 - position.operators) left items position

def equality (inner : Inner) : Parser :=
  let multiplicative := chain (unary inner) .multiplicative
  let additive := chain multiplicative .additive
  let comparison := chain additive .comparison
  chain comparison .equality

def clause (inner : Inner) : Parser := fun items position => do
  let item ← position.next items
  match item.lexeme, items[position.index + 1]?.bind Item.lexeme with
  | some (.name target), some .assign =>
    let position ← position.advance items
    let position ← position.advance items
    let position ← position.countOperator items
    let (value, position) ← within inner.clause items position
    return (.assign target value, position)
  | _, _ => equality inner items position

end Parser

/-- The parsers for what stands further in, with room for the given count of steps. -/
def Inner.withRoom : Nat → Inner
  | 0 => ⟨Parser.stuck, Parser.stuck⟩
  | room + 1 => ⟨Parser.clause (withRoom room), Parser.unary (withRoom room)⟩

/-- The tree of a clause. -/
def parse (items : List Item) : Outcome Expr := do
  let start : Position := ⟨0, 0, 0⟩
  let first ← start.next items
  if first.lexeme.isNone then throw (first.unexpected .expression)
  else
    let (expr, position) ← Parser.clause (Inner.withRoom maxNesting) items start
    let item ← position.next items
    if item.lexeme.isSome then throw (item.unexpected .nothing) else return expr

/-! ## Agreement with the reader of tokens -/

/-- There is no trap, and both sides give the same fault or related values. -/
def Agrees {α β : Type} (related : α → β → Prop) (read : Outcome α)
    (result : Except ClauseFault β) : Prop :=
  (∃ fault, read = throw fault ∧ result = .error fault) ∨
    ∃ a b, read = pure a ∧ result = .ok b ∧ related a b

section
variable {α β : Type} {related : α → β → Prop}

theorem Agrees.fault (fault : ClauseFault) : Agrees related (throw fault) (.error fault) :=
  .inl ⟨fault, rfl, rfl⟩

theorem Agrees.value {a : α} {b : β} (same : related a b) : Agrees related (pure a) (.ok b) :=
  .inr ⟨a, b, rfl, rfl, same⟩

end

/-- What the parser sees next. -/
def nextItem (cursor : Cursor) : Item :=
  ⟨cursor.tokens.head?.map Token.lexeme, cursor.column⟩

theorem nextItem_of_nil {cursor : Cursor} (tokens : cursor.tokens = []) :
    nextItem cursor = ⟨none, cursor.column⟩ := by
  rw [nextItem, tokens]
  rfl

theorem nextItem_of_cons {cursor : Cursor} {token : Token} {rest : List Token}
    (tokens : cursor.tokens = token :: rest) :
    nextItem cursor = ⟨some token.lexeme, token.column⟩ := by
  rw [nextItem, Cursor.column, tokens]
  rfl

theorem exists_cons_of_nextItem {cursor : Cursor} {lexeme : Lexeme}
    (seen : (nextItem cursor).lexeme = some lexeme) :
    ∃ column rest, cursor.tokens = ⟨lexeme, column⟩ :: rest := by
  cases tokens : cursor.tokens with
  | nil =>
      rw [nextItem_of_nil tokens] at seen
      cases seen
  | cons token rest =>
      rw [nextItem_of_cons tokens] at seen
      cases seen
      exact ⟨token.column, rest, rfl⟩

/-- The position and the cursor stand at the same token, at the same count of
operators. -/
structure Matches (list : List Item) (depth : Nat) (position : Position) (cursor : Cursor) :
    Prop where
  rest : list.drop position.index = items ⟨cursor.tokens, cursor.endColumn⟩
  depth : position.depth = depth
  operators : position.operators + cursor.operatorsLeft = maxOperators

section
variable {list : List Item} {depth : Nat} {position : Position} {cursor : Cursor}
  (matching : Matches list depth position cursor)
include matching

theorem Matches.next_eq : position.next list = pure (nextItem cursor) := by
  have found : itemAt list position.index = .ok (nextItem cursor) := by
    apply itemAt_of_getElem?
    have head := congrArg List.head? matching.rest
    rw [List.head?_drop] at head
    rw [head, items, nextItem, Cursor.column]
    cases cursor.tokens <;> rfl
  rw [Position.next, found]
  rfl

theorem Matches.lexeme_behind : list[position.index + 1]?.bind Item.lexeme =
    cursor.tokens.tail.head?.map Token.lexeme := by
  rw [← List.getElem?_drop, matching.rest, items]
  rcases cursor.tokens with _ | ⟨first, _ | ⟨second, rest⟩⟩ <;> rfl

theorem Matches.advance_eq {token : Token} {rest : List Token}
    (tokens : cursor.tokens = token :: rest) :
    position.advance list = pure { position with index := position.index + 1 } ∧
      Matches list depth { position with index := position.index + 1 } (cursor.moveTo rest) := by
  have behind : list.drop (position.index + 1) = items ⟨rest, cursor.endColumn⟩ := by
    rw [← List.tail_drop, matching.rest, tokens]
    rfl
  have inside : position.index + 1 < list.length := by
    apply Nat.lt_of_not_le
    intro ended
    rw [List.drop_eq_nil_of_le ended] at behind
    simp [items] at behind
  rw [Position.advance, matching.next_eq, pure_bind, if_pos inside]
  exact ⟨rfl, behind, matching.depth, matching.operators⟩

theorem Matches.countOperator_of_full (full : cursor.operatorsLeft = 0) :
    position.countOperator list = throw ⟨cursor.column, .tooManyOperators⟩ := by
  have operators := matching.operators
  rw [Position.countOperator, if_pos (by omega), matching.next_eq]
  rfl

/-- An operator is counted, or it is one too many on both sides. -/
theorem Matches.countThen {γ δ : Type} {behind : γ → δ → Prop} {next : Position → Outcome γ}
    {rest : Cursor → Except ClauseFault δ}
    (step : ∀ counted counter, Matches list depth counted counter →
      counter.operatorsLeft < cursor.operatorsLeft → Agrees behind (next counted) (rest counter)) :
    Agrees behind (position.countOperator list >>= next)
      (match cursor.countOperator with
        | .error fault => .error fault
        | .ok counter => rest counter) := by
  rw [Cursor.countOperator]
  cases count : cursor.operatorsLeft with
  | zero =>
      rw [matching.countOperator_of_full count]
      exact .fault _
  | succ left =>
      have operators := matching.operators
      rw [Position.countOperator, if_neg (by omega), pure_bind]
      exact step _ _ ⟨matching.rest, matching.depth, by simp only; omega⟩
        (count ▸ Nat.lt_succ_self left)

end

/-- The expression is the same, and the position behind it matches. -/
structure Follows (list : List Item) (depth operators : Nat) (read : Expr × Position)
    (result : Expr × Cursor) : Prop where
  expr : read.1 = result.1
  matching : Matches list depth read.2 result.2
  operators : result.2.operatorsLeft ≤ operators

theorem Agrees.andThen {γ δ : Type} {behind : γ → δ → Prop} {list : List Item} {depth most : Nat}
    {read : Outcome (Expr × Position)} {result : Except ClauseFault (Expr × Cursor)}
    {next : Expr × Position → Outcome γ} {rest : Expr → Cursor → Except ClauseFault δ} :
    Agrees (Follows list depth most) read result →
      (∀ expr position cursor, Matches list depth position cursor →
        cursor.operatorsLeft ≤ most → Agrees behind (next (expr, position)) (rest expr cursor)) →
      Agrees behind (read >>= next)
        (match result with
          | .error fault => .error fault
          | .ok (expr, cursor) => rest expr cursor) := by
  intro agrees step
  obtain ⟨fault, rfl, rfl⟩ | ⟨⟨expr, position⟩, ⟨_, cursor⟩, rfl, rfl, same, matching, fewer⟩ :=
    agrees
  · exact .fault fault
  · cases same
    rw [pure_bind]
    exact step expr position cursor matching fewer

/-- At matching positions the parser reads what the reader reads. -/
def ReadsAs (list : List Item) (depth : Nat) (parser : Parser) (reader : SceneScript.Reader) :
    Prop :=
  ∀ position cursor, Matches list depth position cursor →
    Agrees (Follows list depth cursor.operatorsLeft) (parser list position) (reader cursor)

/-- What stands one step further in is read as the model reads it. -/
structure InnerReadsAs (list : List Item) (depth : Nat) (inner : Inner)
    (model : Option SceneScript.Inner) : Prop where
  clause : ReadsAs list depth (Parser.within inner.clause)
    (SceneScript.Reader.descend model SceneScript.Inner.clause)
  unary : ReadsAs list depth (Parser.within inner.unary)
    (SceneScript.Reader.descend model SceneScript.Inner.unary)

namespace Parser

variable {list : List Item} {depth : Nat}

theorem within_readsAs_none (full : maxNesting ≤ depth) (parser : Parser)
    (reader : SceneScript.Inner → SceneScript.Reader) :
    ReadsAs list depth (within parser) (SceneScript.Reader.descend none reader) := by
  intro position cursor matching
  rw [within, Position.descend, matching.depth, if_pos (Nat.lt_succ_of_le full), matching.next_eq]
  exact .fault _

/-- Where there is room for a step in, the step out leads back to the same depth. -/
theorem within_readsAs_some (room : depth < maxNesting) {parser : Parser}
    {reader : SceneScript.Inner → SceneScript.Reader} {inner : SceneScript.Inner}
    (reads : ReadsAs list (depth + 1) parser (reader inner)) :
    ReadsAs list depth (within parser) (SceneScript.Reader.descend (some inner) reader) := by
  intro position cursor matching
  change Agrees _ _ (reader inner cursor)
  rw [within, Position.descend, matching.depth, if_neg (Nat.not_lt_of_le room), pure_bind]
  obtain ⟨fault, read, result⟩ | ⟨⟨expr, inside⟩, b, read, result, follows⟩ :=
    reads { position with depth := depth + 1 } cursor ⟨matching.rest, rfl, matching.operators⟩
  · rw [read, result]
    exact .fault fault
  · have out : inside.ascend = pure { inside with depth := depth } := by
      rw [Position.ascend, follows.matching.depth]
      rfl
    simp only [read, result, pure_bind, out]
    exact .value ⟨follows.expr, ⟨follows.matching.rest, rfl, follows.matching.operators⟩,
      follows.operators⟩

theorem closed_agrees {cursor : Cursor} {position : Position} {most : Nat}
    (matching : Matches list depth position cursor)
    (operators : cursor.operatorsLeft ≤ most) (expr : Expr) :
    Agrees (Follows list depth most) (closed expr list position)
      (match cursor.tokens with
        | ⟨.closing, _⟩ :: rest => .ok (expr, cursor.moveTo rest)
        | _ => .error (cursor.unexpected .closing)) := by
  rw [closed, matching.next_eq, pure_bind]
  have unexpected : Agrees (Follows list depth most)
      (throw ((nextItem cursor).unexpected .closing)) (.error (cursor.unexpected .closing)) :=
    .fault _
  split
  · rename_i seen
    obtain ⟨column, rest, tokens⟩ := exists_cons_of_nextItem seen
    obtain ⟨advanced, behind⟩ := matching.advance_eq tokens
    simp only [advanced, pure_bind, tokens]
    exact .value ⟨rfl, behind, operators⟩
  · rename_i other
    split
    · rename_i tokens
      rw [nextItem_of_cons tokens] at other
      exact absurd rfl other
    · exact unexpected

/-- An operator is counted and what stands further in is read. -/
theorem countThen_agrees {parser : Parser} {reader : SceneScript.Reader}
    (reads : ReadsAs list depth parser reader) {position : Position} {cursor : Cursor}
    (matching : Matches list depth position cursor) {most : Nat}
    (operators : cursor.operatorsLeft ≤ most) (wrap : Expr → Expr) :
    Agrees (Follows list depth most)
      (do
        let position ← position.countOperator list
        let (expr, position) ← parser list position
        return (wrap expr, position))
      (match cursor.countOperator with
        | .error fault => .error fault
        | .ok cursor =>
          match reader cursor with
          | .error fault => .error fault
          | .ok (expr, cursor) => .ok (wrap expr, cursor)) := by
  apply matching.countThen
  intro counted counter matching fewer
  refine (reads counted counter matching).andThen ?_
  intro expr behind left matching fewerLeft
  exact .value ⟨rfl, matching, by simp only; omega⟩

section
variable {inner : Inner} {model : Option SceneScript.Inner}
  (inside : InnerReadsAs list depth inner model)
include inside

theorem primary_readsAs :
    ReadsAs list depth (primary inner) (SceneScript.Reader.primary model) := by
  intro position cursor matching
  rw [primary, matching.next_eq, pure_bind]
  have unexpected : Agrees (Follows list depth cursor.operatorsLeft)
      (throw ((nextItem cursor).unexpected .expression))
      (.error (cursor.unexpected .expression)) := .fault _
  cases tokens : cursor.tokens with
  | nil =>
      rw [nextItem_of_nil tokens] at unexpected ⊢
      simp only [SceneScript.Reader.primary, tokens]
      exact unexpected
  | cons token rest =>
      obtain ⟨lexeme, column⟩ := token
      obtain ⟨advanced, behind⟩ := matching.advance_eq tokens
      rw [nextItem_of_cons tokens] at unexpected ⊢
      simp only [SceneScript.Reader.primary, tokens]
      cases lexeme with
      | number value =>
          simp only [advanced, pure_bind]
          exact .value ⟨rfl, behind, Nat.le_refl _⟩
      | name name =>
          simp only [advanced, pure_bind]
          exact .value ⟨rfl, behind, Nat.le_refl _⟩
      | opening =>
          simp only [advanced, pure_bind]
          refine (inside.clause _ _ behind).andThen ?_
          intro expr after left matching fewer
          exact closed_agrees matching fewer expr
      | operator op => exact unexpected
      | assign => exact unexpected
      | closing => exact unexpected

theorem unary_readsAs : ReadsAs list depth (unary inner) (SceneScript.Reader.unary model) := by
  intro position cursor matching
  have primaryAgrees := primary_readsAs inside position cursor matching
  rw [unary, matching.next_eq, pure_bind, SceneScript.Reader.unary]
  split
  · rename_i seen
    obtain ⟨column, rest, tokens⟩ := exists_cons_of_nextItem seen
    obtain ⟨advanced, behind⟩ := matching.advance_eq tokens
    simp only [advanced, pure_bind, tokens]
    exact countThen_agrees inside.unary behind (Nat.le_refl _) Expr.neg
  · rename_i other
    split
    · rename_i tokens
      rw [nextItem_of_cons tokens] at other
      exact absurd rfl other
    · exact primaryAgrees

end

theorem operator?_cases (precedence : Precedence) (cursor : Cursor) :
    operator? precedence (nextItem cursor).lexeme = none ∧
        SceneScript.Reader.operator? precedence cursor.tokens = none ∨
      ∃ op column rest, cursor.tokens = ⟨.operator op, column⟩ :: rest ∧
        operator? precedence (nextItem cursor).lexeme = some op ∧
        SceneScript.Reader.operator? precedence cursor.tokens = some (op, column, rest) := by
  cases tokens : cursor.tokens with
  | nil =>
      rw [nextItem_of_nil tokens]
      exact .inl ⟨rfl, rfl⟩
  | cons token rest =>
      obtain ⟨lexeme, column⟩ := token
      rw [nextItem_of_cons tokens]
      cases lexeme with
      | operator op =>
          by_cases same : op.precedence = precedence
          · exact .inr ⟨op, column, rest, rfl, if_pos same, if_pos same⟩
          · exact .inl ⟨if_neg same, if_neg same⟩
      | _ => exact .inl ⟨rfl, rfl⟩

section
variable {operand : Parser} {reader : SceneScript.Reader}
  (operands : ReadsAs list depth operand reader)
include operands

theorem chainFrom_agrees (precedence : Precedence) {most : Nat} {steps : Nat} (left : Expr)
    {position : Position} {cursor : Cursor} (matching : Matches list depth position cursor)
    (enough : cursor.operatorsLeft ≤ steps)
    (operators : cursor.operatorsLeft ≤ most) :
    Agrees (Follows list depth most) (chainFrom operand precedence (steps + 1) left list position)
      (SceneScript.Reader.chainFrom reader precedence steps left cursor) := by
  induction steps generalizing left position cursor with
  | zero =>
      simp only [chainFrom, SceneScript.Reader.chainFrom, matching.next_eq, pure_bind]
      obtain ⟨none, noneModel⟩ | ⟨op, column, rest, tokens, found, foundModel⟩ :=
        operator?_cases precedence cursor
      · simp only [none, noneModel]
        exact .value ⟨rfl, matching, operators⟩
      obtain ⟨advanced, behind⟩ := matching.advance_eq tokens
      simp only [found, foundModel, advanced, pure_bind]
      -- No operator is left, so one more is the same fault on both sides.
      have full : (cursor.moveTo rest).operatorsLeft = 0 := Nat.le_zero.mp enough
      rw [behind.countOperator_of_full full]
      exact .fault _
  | succ steps ih =>
      rw [chainFrom, SceneScript.Reader.chainFrom]
      simp only [matching.next_eq, pure_bind]
      obtain ⟨none, noneModel⟩ | ⟨op, column, rest, tokens, found, foundModel⟩ :=
        operator?_cases precedence cursor
      · simp only [none, noneModel]
        exact .value ⟨rfl, matching, operators⟩
      obtain ⟨advanced, behind⟩ := matching.advance_eq tokens
      simp only [found, foundModel, advanced, pure_bind]
      apply behind.countThen
      intro counted counter counts fewer
      refine (operands counted counter counts).andThen ?_
      intro right after rest matching fewerLeft
      have left : rest.operatorsLeft < cursor.operatorsLeft := Nat.lt_of_le_of_lt fewerLeft fewer
      rw [nextItem_of_cons tokens]
      exact ih _ matching (by omega) (by omega)

theorem chain_readsAs (precedence : Precedence) :
    ReadsAs list depth (chain operand precedence) (SceneScript.Reader.chain reader precedence) := by
  intro position cursor matching
  rw [chain, SceneScript.Reader.chain]
  refine (operands position cursor matching).andThen ?_
  intro left after behind matching fewer
  have steps : maxOperators + 1 - after.operators = behind.operatorsLeft + 1 := by
    have total := matching.operators
    omega
  simp only [steps]
  exact chainFrom_agrees operands precedence left matching (Nat.le_refl _) fewer

end

/-! ### Assignments and whole clauses -/

section
variable {inner : Inner} {model : Option SceneScript.Inner}
  (inside : InnerReadsAs list depth inner model)
include inside

theorem equality_readsAs :
    ReadsAs list depth (equality inner) (SceneScript.Reader.equality model) := by
  have unary := unary_readsAs inside
  have multiplicative := chain_readsAs unary .multiplicative
  have additive := chain_readsAs multiplicative .additive
  have comparison := chain_readsAs additive .comparison
  exact chain_readsAs comparison .equality

theorem clause_readsAs : ReadsAs list depth (clause inner) (SceneScript.Reader.clause model) := by
  intro position cursor matching
  have equalityAgrees := equality_readsAs inside position cursor matching
  rw [clause, matching.next_eq, pure_bind, matching.lexeme_behind, SceneScript.Reader.clause]
  split
  · rename_i target seen seenBehind
    obtain ⟨column, rest, tokens⟩ := exists_cons_of_nextItem seen
    rw [tokens] at seenBehind
    obtain _ | ⟨⟨lexeme, columnBehind⟩, rest⟩ := rest
    · cases seenBehind
    cases seenBehind
    obtain ⟨advanced, behindName⟩ := matching.advance_eq tokens
    obtain ⟨advancedAgain, behind⟩ := behindName.advance_eq rfl
    simp only [advanced, advancedAgain, pure_bind, tokens]
    exact countThen_agrees inside.clause behind (Nat.le_refl _) (Expr.assign target)
  · rename_i other
    split
    · rename_i target column columnBehind rest tokens
      have seen : (nextItem cursor).lexeme = some (.name target) := by rw [nextItem_of_cons tokens]
      have seenBehind : cursor.tokens.tail.head?.map Token.lexeme = some .assign := by
        rw [tokens]
        rfl
      exact (other target seen seenBehind).elim
    · exact equalityAgrees

end

end Parser

theorem Inner.withRoom_readsAs (list : List Item) {depth room : Nat}
    (total : depth + room = maxNesting) :
    ReadsAs list depth (Parser.clause (withRoom room))
        (SceneScript.Reader.clause (SceneScript.Inner.withRoom room)) ∧
      ReadsAs list depth (Parser.unary (withRoom room))
        (SceneScript.Reader.unary (SceneScript.Inner.withRoom room)) := by
  induction room generalizing depth with
  | zero =>
      have full : maxNesting ≤ depth := Nat.le_of_eq total.symm
      have inside : InnerReadsAs list depth (withRoom 0) (SceneScript.Inner.withRoom 0) :=
        ⟨Parser.within_readsAs_none full _ _, Parser.within_readsAs_none full _ _⟩
      exact ⟨Parser.clause_readsAs inside, Parser.unary_readsAs inside⟩
  | succ room ih =>
      have deeper : depth < maxNesting := by omega
      obtain ⟨clause, unary⟩ := @ih (depth + 1) (by omega)
      have inside : InnerReadsAs list depth (withRoom (room + 1))
          (SceneScript.Inner.withRoom (room + 1)) :=
        ⟨Parser.within_readsAs_some deeper clause, Parser.within_readsAs_some deeper unary⟩
      exact ⟨Parser.clause_readsAs inside, Parser.unary_readsAs inside⟩

/-- Nothing can be read at the end of a clause. -/
theorem clause_of_nil (inner : Option SceneScript.Inner) {cursor : Cursor}
    (tokens : cursor.tokens = []) :
    SceneScript.Reader.clause inner cursor = .error (cursor.unexpected .expression) := by
  simp only [SceneScript.Reader.clause, SceneScript.Reader.equality, SceneScript.Reader.chain,
    SceneScript.Reader.unary, SceneScript.Reader.primary, tokens]

theorem all_used_eq (cursor : Cursor) (expr : Expr) :
    (if (nextItem cursor).lexeme.isSome then throw ((nextItem cursor).unexpected .nothing)
      else pure expr : Outcome Expr).run =
    .ok (if cursor.tokens.isEmpty then .ok expr else .error (cursor.unexpected .nothing)) := by
  cases tokens : cursor.tokens with
  | nil =>
      rw [nextItem_of_nil tokens]
      rfl
  | cons token rest =>
      have fault : (nextItem cursor).unexpected .nothing = cursor.unexpected .nothing := rfl
      rw [fault, nextItem_of_cons tokens]
      rfl

/-- The tree of the items is the tree of the tokens. -/
theorem parse_items (tokens : Tokens) :
    (parse (items tokens)).run = .ok (Expr.ofTokens tokens) := by
  obtain ⟨list, endColumn⟩ := tokens
  have start : Matches (items ⟨list, endColumn⟩) 0 ⟨0, 0, 0⟩ ⟨list, endColumn, maxOperators⟩ :=
    ⟨rfl, rfl, Nat.zero_add _⟩
  simp only [parse, Expr.ofTokens, start.next_eq, pure_bind]
  cases list with
  | nil =>
      rw [clause_of_nil _ rfl]
      rfl
  | cons token rest =>
      rw [nextItem_of_cons rfl, Option.isNone_some, if_neg Bool.false_ne_true]
      obtain ⟨fault, read, result⟩ | ⟨⟨expr, position⟩, ⟨_, cursor⟩, read, result, follows⟩ :=
        (Inner.withRoom_readsAs _ (Nat.zero_add maxNesting)).1 _ _ start
      · simp only [read, result]
        rfl
      · cases follows.expr
        have seen : position.next (items ⟨token :: rest, endColumn⟩) = pure (nextItem cursor) :=
          follows.matching.next_eq
        simp only [read, result, pure_bind, seen]
        exact all_used_eq cursor expr

end SceneScript.Offset
