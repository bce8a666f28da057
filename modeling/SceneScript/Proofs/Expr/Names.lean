import SceneScript.Expr.Clause
import SceneScript.Proofs.Text.Word

/-!
# Names of a clause

Whatever the text of a clause, each name in its tree is an identifier. If there is no
tree, the fault speaks of a token with such a name, of a character that is no blank, or of
a numeral.
-/

set_option autoImplicit false

namespace SceneScript

open SceneScript.Text

/-! ## Trees and faults with well-formed names -/

def Lexeme.IsWellNamed : Lexeme → Prop
  | .name text => IsName text.toList
  | _ => True

inductive Expr.IsWellNamed : Expr → Prop
  | number (value : Float) : IsWellNamed (.number value)
  | var {name : String} (column : Nat) (named : IsName name.toList) :
      IsWellNamed (.var name column)
  | neg {operand : Expr} (inside : operand.IsWellNamed) : IsWellNamed (.neg operand)
  | binary (op : BinaryOp) (column : Nat) {left right : Expr} (ofLeft : left.IsWellNamed)
      (ofRight : right.IsWellNamed) : IsWellNamed (.binary op column left right)
  | assign {target : String} {value : Expr} (named : IsName target.toList)
      (inside : value.IsWellNamed) : IsWellNamed (.assign target value)

/-- What a numeral is made of, its exponent included. -/
def Decimal.isNumeralChar (c : Char) : Bool :=
  c.isDigit || c ∈ ['.', 'e', 'E', '+', '-']

namespace ClauseFault

def Reason.IsWellFormed : Reason → Prop
  | .strayCharacter character => isAsciiBlank character = false
  | .malformedNumber text => ∀ c ∈ text.toList, Decimal.isNumeralChar c = true
  | .unexpected _ found => ∀ lexeme ∈ found, lexeme.IsWellNamed
  | _ => True

end ClauseFault

/-! ## Tokens -/

namespace Decimal

theorem isNumeralChar_of_isDigit {c : Char} (digit : c.isDigit = true) : isNumeralChar c = true := by
  simp only [isNumeralChar, digit, Bool.true_or]

theorem isNumeralChar_of_mem_exponentPart {text : List Char} {c : Char}
    (member : c ∈ exponentPart text) : isNumeralChar c = true := by
  unfold exponentPart at member
  split at member
  · cases member
  rename_i mark rest
  simp only at member
  split at member
  · rename_i marked
    simp only [Bool.and_eq_true, Bool.or_eq_true, decide_eq_true_eq] at marked
    simp only [List.mem_cons, List.mem_append, List.mem_filter, Bool.or_eq_true,
      decide_eq_true_eq] at member
    obtain rfl | ⟨-, rfl | rfl⟩ | digit := member
    · obtain rfl | rfl := marked.1 <;> decide
    · decide
    · decide
    · exact isNumeralChar_of_isDigit (List.mem_takeWhile_imp digit)
  · cases member

theorem isNumeralChar_of_mem_mantissaPart {text : List Char} {c : Char}
    (member : c ∈ mantissaPart text) : isNumeralChar c = true := by
  simp only [mantissaPart] at member
  split at member
  · simp only [List.mem_append, List.mem_cons] at member
    obtain digit | rfl | digit := member
    · exact isNumeralChar_of_isDigit (List.mem_takeWhile_imp digit)
    · decide
    · exact isNumeralChar_of_isDigit (List.mem_takeWhile_imp digit)
  · exact isNumeralChar_of_isDigit (List.mem_takeWhile_imp member)

theorem isNumeralChar_of_mem_numeral {text : List Char} :
    ∀ c ∈ numeral text, isNumeralChar c = true := by
  intro c member
  simp only [numeral, List.mem_append] at member
  exact member.elim isNumeralChar_of_mem_mantissaPart isNumeralChar_of_mem_exponentPart

end Decimal

theorem Lexeme.isWellNamed_of_symbol? {text : List Char} {lexeme : Lexeme} {more : Nat}
    (found : symbol? text = some (lexeme, more)) : lexeme.IsWellNamed := by
  unfold symbol? at found
  split at found
  all_goals cases found
  all_goals exact trivial

theorem Lexeme.isWellNamed_of_longest {first : Char} {rest : List Char} {lexeme : Lexeme}
    {more : Nat} (found : longest first rest = .ok (lexeme, more)) : lexeme.IsWellNamed := by
  unfold longest at found
  split at found
  · rename_i symbol
    cases found
    exact isWellNamed_of_symbol? symbol
  split at found
  · cases found
  split at found
  · simp only at found
    split at found
    · cases found
      exact trivial
    · cases found
  split at found
  · rename_i start
    cases found
    simp only [IsWellNamed, String.toList_ofList, IsName]
    exact ⟨start, fun c member => List.mem_takeWhile_imp member⟩
  · cases found

theorem Lexeme.isWellFormed_of_longest {first : Char} {rest : List Char}
    {reason : ClauseFault.Reason} (solid : isAsciiBlank first = false)
    (failed : longest first rest = .error reason) : reason.IsWellFormed := by
  unfold longest at failed
  split at failed
  · cases failed
  split at failed
  · cases failed
    exact trivial
  split at failed
  · simp only at failed
    split at failed
    · cases failed
    · cases failed
      simp only [ClauseFault.Reason.IsWellFormed, String.toList_ofList]
      exact Decimal.isNumeralChar_of_mem_numeral
  split at failed
  · cases failed
  · cases failed
    exact solid

def Tokens.IsWellNamed (tokens : List Token) : Prop :=
  ∀ token ∈ tokens, token.lexeme.IsWellNamed

theorem Tokens.readFrom_isWellNamed (column : Nat) (text : List Char) :
    match readFrom column text with
    | .ok tokens => IsWellNamed tokens.list
    | .error fault => fault.reason.IsWellFormed := by
  fun_induction readFrom column text with
  | case1 column text start ended => exact List.forall_mem_nil _
  | case2 column text start first rest skipped reason failed =>
      exact Lexeme.isWellFormed_of_longest (isAsciiBlank_of_skipBlanks skipped) failed
  | case3 column text start first rest skipped lexeme more found fault failed ih =>
      rw [failed] at ih
      exact ih
  | case4 column text start first rest skipped lexeme more found tokens others ih =>
      rw [others] at ih
      exact List.forall_mem_cons.mpr ⟨Lexeme.isWellNamed_of_longest found, ih⟩

/-! ## Trees -/

def Cursor.IsWellNamed (cursor : Cursor) : Prop :=
  Tokens.IsWellNamed cursor.tokens

namespace Cursor.IsWellNamed

variable {cursor : Cursor} (named : cursor.IsWellNamed)
include named

theorem head {token : Token} {rest : List Token} (tokens : cursor.tokens = token :: rest) :
    token.lexeme.IsWellNamed :=
  named token (tokens ▸ List.mem_cons_self)

theorem moveTo {rest : List Token} (behind : rest <:+ cursor.tokens) :
    (cursor.moveTo rest).IsWellNamed :=
  fun token member => named token (behind.subset member)

theorem unexpected (expected : Expected) : (cursor.unexpected expected).reason.IsWellFormed := by
  intro lexeme found
  obtain ⟨token, first, rfl⟩ := Option.map_eq_some_iff.mp found
  exact named token (List.mem_of_head? first)

end Cursor.IsWellNamed

namespace Reader

/-- A tree of well-formed names and a place from which to go on, or a fault. -/
def IsWellNamed : Except ClauseFault (Expr × Cursor) → Prop
  | .ok (tree, next) => tree.IsWellNamed ∧ next.IsWellNamed
  | .error fault => fault.reason.IsWellFormed

/-- Going on behind what a reader has read. -/
theorem IsWellNamed.andThen {outcome : Except ClauseFault (Expr × Cursor)}
    (read : IsWellNamed outcome) {more : Expr → Reader}
    (goesOn : ∀ tree cursor, tree.IsWellNamed → cursor.IsWellNamed →
      IsWellNamed (more tree cursor)) :
    IsWellNamed (match outcome with
      | .error fault => .error fault
      | .ok (tree, cursor) => more tree cursor) := by
  match outcome, read with
  | .error _, malformed => exact malformed
  | .ok (tree, cursor), ⟨ofTree, named⟩ => exact goesOn tree cursor ofTree named

theorem isWellNamed_countOperator {cursor : Cursor} (named : cursor.IsWellNamed) {more : Reader}
    (goesOn : ∀ next : Cursor, next.IsWellNamed → IsWellNamed (more next)) :
    IsWellNamed (match cursor.countOperator with
      | .error fault => .error fault
      | .ok next => more next) := by
  unfold Cursor.countOperator
  split
  · rename_i fault failed
    split at failed
    · cases failed
      exact trivial
    · cases failed
  · rename_i next counted
    split at counted
    · cases counted
    · cases counted
      exact goesOn _ named

def KeepsNames (reader : Reader) : Prop :=
  ∀ cursor : Cursor, cursor.IsWellNamed → IsWellNamed (reader cursor)

theorem descend_keepsNames {inner : Option Inner} {reader : Inner → Reader}
    (keeps : ∀ readers ∈ inner, (reader readers).KeepsNames) :
    (descend inner reader).KeepsNames := by
  intro cursor named
  cases inner with
  | none => exact trivial
  | some readers => exact keeps readers rfl cursor named

/-- What stands one step further in. -/
def InnerKeepsNames (inner : Option Inner) : Prop :=
  ∀ readers ∈ inner, readers.clause.KeepsNames ∧ readers.unary.KeepsNames

section
variable {inner : Option Inner} (innerKeeps : InnerKeepsNames inner)
include innerKeeps

theorem primary_keepsNames : (primary inner).KeepsNames := by
  intro cursor named
  have deeper := descend_keepsNames fun readers member => (innerKeeps readers member).1
  unfold primary
  split
  · rename_i value column rest tokens
    exact ⟨.number value, named.moveTo (tokens ▸ List.suffix_cons _ rest)⟩
  · rename_i name column rest tokens
    exact ⟨.var column (named.head tokens), named.moveTo (tokens ▸ List.suffix_cons _ rest)⟩
  · rename_i column rest tokens
    have inside := deeper _ (named.moveTo (tokens ▸ List.suffix_cons _ rest))
    refine inside.andThen fun tree next ofTree behind => ?_
    split
    · rename_i column rest tokens
      exact ⟨ofTree, behind.moveTo (tokens ▸ List.suffix_cons _ rest)⟩
    · exact behind.unexpected .closing
  · exact named.unexpected .expression

theorem unary_keepsNames : (unary inner).KeepsNames := by
  intro cursor named
  have deeper := descend_keepsNames fun readers member => (innerKeeps readers member).2
  unfold unary
  split
  · rename_i column rest tokens
    have behind := named.moveTo (tokens ▸ List.suffix_cons _ rest)
    refine isWellNamed_countOperator behind fun counted behind => ?_
    exact (deeper counted behind).andThen fun operand next ofOperand named =>
      ⟨.neg ofOperand, named⟩
  · exact primary_keepsNames innerKeeps cursor named

end

theorem suffix_of_operator? {precedence : Precedence} {tokens rest : List Token} {op : BinaryOp}
    {column : Nat} (found : operator? precedence tokens = some (op, column, rest)) :
    rest <:+ tokens := by
  unfold operator? at found
  split at found
  · split at found
    · cases found
      exact List.suffix_cons _ _
    · cases found
  · cases found

section
variable {operand : Reader} (operandKeeps : operand.KeepsNames) (precedence : Precedence)
include operandKeeps

theorem chainFrom_keepsNames (steps : Nat) {left : Expr} (ofLeft : left.IsWellNamed) :
    (chainFrom operand precedence steps left).KeepsNames := by
  intro cursor named
  induction steps generalizing left cursor with
  | zero =>
      unfold chainFrom
      split
      · exact ⟨ofLeft, named⟩
      · exact trivial
  | succ steps ih =>
      unfold chainFrom
      split
      · exact ⟨ofLeft, named⟩
      · rename_i op column rest found
        have behind := named.moveTo (suffix_of_operator? found)
        refine isWellNamed_countOperator behind fun counted behind => ?_
        exact (operandKeeps counted behind).andThen fun right next ofRight named =>
          ih (.binary op column ofLeft ofRight) next named

theorem chain_keepsNames : (chain operand precedence).KeepsNames := by
  intro cursor named
  exact (operandKeeps cursor named).andThen fun left next ofLeft behind =>
    chainFrom_keepsNames operandKeeps precedence next.operatorsLeft ofLeft next behind

end

theorem equality_keepsNames {inner : Option Inner} (innerKeeps : InnerKeepsNames inner) :
    (equality inner).KeepsNames := by
  have multiplicative := chain_keepsNames (unary_keepsNames innerKeeps) .multiplicative
  have additive := chain_keepsNames multiplicative .additive
  have comparison := chain_keepsNames additive .comparison
  exact chain_keepsNames comparison .equality

theorem clause_keepsNames {inner : Option Inner} (innerKeeps : InnerKeepsNames inner) :
    (clause inner).KeepsNames := by
  intro cursor named
  have deeper := descend_keepsNames fun readers member => (innerKeeps readers member).1
  unfold clause
  split
  · rename_i target column equals rest tokens
    have behind : (cursor.moveTo rest).IsWellNamed :=
      named.moveTo (tokens ▸ (List.suffix_cons _ rest).trans (List.suffix_cons _ _))
    refine isWellNamed_countOperator behind fun counted behind => ?_
    exact (deeper counted behind).andThen fun value next ofValue behind =>
      ⟨.assign (named.head tokens) ofValue, behind⟩
  · exact equality_keepsNames innerKeeps cursor named

theorem withRoom_keepsNames (room : Nat) : InnerKeepsNames (Inner.withRoom room) := by
  induction room with
  | zero => exact fun readers member => nomatch member
  | succ room ih =>
      intro readers member
      cases Option.mem_some.mp member
      exact ⟨clause_keepsNames ih, unary_keepsNames ih⟩

end Reader

/-! ## Clauses -/

/-- A tree of well-formed names, or a fault that says why there is none. -/
def Expr.IsWellRead : Except ClauseFault Expr → Prop
  | .ok tree => tree.IsWellNamed
  | .error fault => fault.reason.IsWellFormed

theorem Expr.ofTokens_isWellNamed {tokens : Tokens} (named : Tokens.IsWellNamed tokens.list) :
    Expr.IsWellRead (ofTokens tokens) := by
  have read := Reader.clause_keepsNames (Reader.withRoom_keepsNames maxNesting)
    ⟨tokens.list, tokens.endColumn, maxOperators⟩ named
  unfold ofTokens
  split
  · rename_i fault failed
    rw [failed] at read
    exact read
  · rename_i tree next isRead
    rw [isRead] at read
    split
    · exact read.1
    · exact read.2.unexpected .nothing

theorem Expr.ofText_isWellNamed (text : List Char) : Expr.IsWellRead (ofText text) := by
  have lexed := Tokens.readFrom_isWellNamed 1 text
  unfold ofText Tokens.read
  split
  · rename_i fault failed
    rw [failed] at lexed
    exact lexed
  · rename_i tokens read
    rw [read] at lexed
    exact ofTokens_isWellNamed lexed

end SceneScript
