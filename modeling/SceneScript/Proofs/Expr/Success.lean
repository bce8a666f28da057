import SceneScript.Proofs.Expr.Writes

/-!
# When an expression has a value

Whether evaluation succeeds does not depend on the numbers in the store. It depends on two
things: truth values must not become operands, and a name must be bound when it is read. The
second is decided along the order in which evaluation reads and writes names, so that an
assignment inside an expression binds its target for all that is read behind it.
-/

set_option autoImplicit false

namespace SceneScript

namespace Expr

/-! ## Truth values -/

def isComparison : Expr → Bool
  | .binary op _ _ _ => op.isComparison
  | _ => false

def operands : Expr → List Expr
  | .number _ => []
  | .var _ _ => []
  | .neg operand => [operand]
  | .binary _ _ left right => [left, right]
  | .assign _ value => [value]

/-- A tree and all trees inside it. -/
def subtrees : Expr → List Expr
  | .number value => [.number value]
  | .var name column => [.var name column]
  | .neg operand => .neg operand :: operand.subtrees
  | .binary op column left right =>
    .binary op column left right :: (left.subtrees ++ right.subtrees)
  | .assign target value => .assign target value :: value.subtrees

/-- No comparison is an operand of a minus, of a binary operator or of an assignment. -/
def OperandsAreNumeric (tree : Expr) : Prop :=
  ∀ node ∈ tree.subtrees, ∀ operand ∈ node.operands, operand.isComparison = false

theorem operandsAreNumeric_neg {operand : Expr} :
    (neg operand).OperandsAreNumeric ↔
      operand.isComparison = false ∧ operand.OperandsAreNumeric := by
  unfold OperandsAreNumeric
  rw [subtrees, List.forall_mem_cons]
  exact and_congr_left' List.forall_mem_singleton

theorem operandsAreNumeric_binary {op : BinaryOp} {column : Nat} {left right : Expr} :
    (binary op column left right).OperandsAreNumeric ↔
      (left.isComparison = false ∧ left.OperandsAreNumeric) ∧
        right.isComparison = false ∧ right.OperandsAreNumeric := by
  have both : (∀ operand ∈ [left, right], operand.isComparison = false) ↔
      left.isComparison = false ∧ right.isComparison = false := by
    rw [List.forall_mem_cons, List.forall_mem_singleton]
  unfold OperandsAreNumeric
  rw [subtrees, List.forall_mem_cons, List.forall_mem_append, operands, both, and_and_and_comm]

theorem operandsAreNumeric_assign {target : String} {value : Expr} :
    (assign target value).OperandsAreNumeric ↔
      value.isComparison = false ∧ value.OperandsAreNumeric := by
  unfold OperandsAreNumeric
  rw [subtrees, List.forall_mem_cons]
  exact and_congr_left' List.forall_mem_singleton

/-! ## Names in the order of evaluation -/

/-- What evaluation does with a name. -/
inductive Access where
  | reads (name : String)
  | writes (name : String)
deriving DecidableEq

/-- All accesses to names, in the order of a complete evaluation. -/
def accesses : Expr → List Access
  | .number _ => []
  | .var name _ => [.reads name]
  | .neg operand => operand.accesses
  | .binary _ _ left right => left.accesses ++ right.accesses
  | .assign target value => value.accesses ++ [.writes target]

theorem writes_mem_accesses_iff {tree : Expr} {name : String} :
    .writes name ∈ tree.accesses ↔ name ∈ tree.targets := by
  induction tree with
  | number value => simp [accesses, targets]
  | var other column => simp [accesses, targets]
  | neg operand ih => exact ih
  | binary op column left right leftIH rightIH =>
      simp only [accesses, targets, List.mem_append, leftIH, rightIH]
  | assign target value ih =>
      simp only [accesses, targets, List.mem_append, List.mem_singleton, Access.writes.injEq, ih]

/-- Every name is bound from the start, or written before it is read. -/
def ReadsBound (bound : String → Prop) (accesses : List Access) : Prop :=
  ∀ before name after, accesses = before ++ .reads name :: after →
    bound name ∨ .writes name ∈ before

theorem readsBound_nil (bound : String → Prop) : ReadsBound bound [] := by
  intro before name after whole
  cases before <;> cases whole

theorem readsBound_reads_iff {bound : String → Prop} {name : String} :
    ReadsBound bound [.reads name] ↔ bound name := by
  constructor
  · intro settled
    exact (settled [] name [] rfl).resolve_right List.not_mem_nil
  · intro isBound before other after whole
    obtain ⟨rfl, same⟩ | ⟨rest, -, whole⟩ := List.cons_eq_append_iff.mp whole
    · cases same
      exact .inl isBound
    · cases rest <;> cases whole

theorem readsBound_writes (bound : String → Prop) (name : String) :
    ReadsBound bound [.writes name] := by
  intro before other after whole
  obtain ⟨-, same⟩ | ⟨rest, -, whole⟩ := List.cons_eq_append_iff.mp whole
  · cases same
  · cases rest <;> cases whole

theorem readsBound_append_iff {bound : String → Prop} {first second : List Access} :
    ReadsBound bound (first ++ second) ↔ ReadsBound bound first ∧
      ReadsBound (fun name => bound name ∨ .writes name ∈ first) second := by
  constructor
  · intro settled
    constructor
    · rintro before name after rfl
      exact settled before name (after ++ second) (by simp)
    · rintro before name after rfl
      have found := settled (first ++ before) name after (by simp)
      rwa [List.mem_append, ← or_assoc] at found
  · rintro ⟨inFirst, inSecond⟩ before name after whole
    rcases List.append_eq_append_iff.mp whole with ⟨rest, rfl, second⟩ | ⟨rest, split, others⟩
    · rw [List.mem_append, ← or_assoc]
      exact inSecond rest name after second
    · cases rest with
      | nil =>
          have found := inSecond [] name after others.symm
          rw [split, List.append_nil] at found
          exact found.resolve_right List.not_mem_nil
      | cons access rest =>
          cases others
          exact inFirst before name rest split

theorem ReadsBound.congr {bound other : String → Prop} (same : ∀ name, bound name ↔ other name)
    (accesses : List Access) : ReadsBound bound accesses ↔ ReadsBound other accesses := by
  simp only [ReadsBound, same]

end Expr

/-! ## Values -/

namespace BinaryOp

theorem kind_apply (op : BinaryOp) (left right : Float) :
    (op.apply left right).kind = .bool ↔ op.isComparison = true := by
  cases op <;> simp [apply, Value.kind, isComparison, precedence]

theorem combine_eq_ok {op : BinaryOp} {column : Nat} {left right value : Value}
    (combined : op.combine column left right = .ok value) :
    ∃ first second, left = .number first ∧ right = .number second ∧
      value = op.apply first second := by
  unfold combine at combined
  split at combined
  · cases combined
    exact ⟨_, _, rfl, rfl, rfl⟩
  · cases combined

end BinaryOp

namespace Expr

variable {store after : Store} {value : Value}

theorem eval_neg_ok {operand : Expr} (evaluated : (neg operand).eval store = (.ok value, after)) :
    ∃ number, operand.eval store = (.ok (.number number), after) ∧ value = .number (-number) := by
  unfold eval at evaluated
  split at evaluated <;> cases evaluated
  exact ⟨_, by assumption, rfl⟩

theorem eval_binary_ok {op : BinaryOp} {column : Nat} {left right : Expr}
    (evaluated : (binary op column left right).eval store = (.ok value, after)) :
    ∃ first second middle, left.eval store = (.ok (.number first), middle) ∧
      right.eval middle = (.ok (.number second), after) ∧ value = op.apply first second := by
  unfold eval at evaluated
  split at evaluated
  · cases evaluated
  · rename_i leftValue middle ofLeft
    split at evaluated
    · cases evaluated
    · rename_i rightValue final ofRight
      simp only [Prod.mk.injEq] at evaluated
      obtain ⟨combined, rfl⟩ := evaluated
      obtain ⟨first, second, rfl, rfl, rfl⟩ := BinaryOp.combine_eq_ok combined
      exact ⟨first, second, middle, ofLeft, ofRight, rfl⟩

theorem eval_assign_ok {target : String} {tree : Expr}
    (evaluated : (assign target tree).eval store = (.ok value, after)) :
    ∃ number middle, tree.eval store = (.ok (.number number), middle) ∧
      value = .number number ∧ after = middle.set target number := by
  unfold eval at evaluated
  split at evaluated
  · cases evaluated
  · rename_i result middle ofValue
    cases result with
    | number number =>
        cases evaluated
        exact ⟨number, middle, ofValue, rfl, rfl⟩
    | bool truth => cases evaluated

theorem kind_of_eval {tree : Expr} (evaluated : tree.eval store = (.ok value, after)) :
    value.kind = .bool ↔ tree.isComparison = true := by
  cases tree with
  | number number =>
      cases evaluated
      simp [Value.kind, isComparison]
  | var name column =>
      unfold eval at evaluated
      split at evaluated <;> cases evaluated
      simp [Value.kind, isComparison]
  | neg operand =>
      obtain ⟨number, -, rfl⟩ := eval_neg_ok evaluated
      simp [Value.kind, isComparison]
  | binary op column left right =>
      obtain ⟨first, second, middle, -, -, rfl⟩ := eval_binary_ok evaluated
      exact op.kind_apply first second
  | assign target tree =>
      obtain ⟨number, middle, -, rfl, -⟩ := eval_assign_ok evaluated
      simp [Value.kind, isComparison]

/-- A tree with a value can be an operand exactly if it is no comparison. -/
theorem exists_number_iff {tree : Expr} :
    (∃ number, tree.eval store = (.ok (.number number), after)) ↔
      (∃ value, tree.eval store = (.ok value, after)) ∧ tree.isComparison = false := by
  constructor
  · rintro ⟨number, evaluated⟩
    have kind := kind_of_eval evaluated
    exact ⟨⟨_, evaluated⟩, by simpa [Value.kind] using kind⟩
  · rintro ⟨⟨value, evaluated⟩, plain⟩
    have kind := kind_of_eval evaluated
    cases value with
    | number number => exact ⟨number, evaluated⟩
    | bool truth => simp [Value.kind, plain] at kind

/-! ## The store afterwards -/

theorem isSome_get?_of_eval {tree : Expr} (evaluated : tree.eval store = (.ok value, after))
    (name : String) :
    (after.get? name).isSome = true ↔
      (store.get? name).isSome = true ∨ name ∈ tree.targets := by
  induction tree generalizing store after value with
  | number number =>
      cases evaluated
      simp [targets]
  | var other column =>
      unfold eval at evaluated
      split at evaluated <;> cases evaluated
      simp [targets]
  | neg operand ih =>
      obtain ⟨number, ofOperand, -⟩ := eval_neg_ok evaluated
      exact ih ofOperand
  | binary op column left right leftIH rightIH =>
      obtain ⟨first, second, middle, ofLeft, ofRight, -⟩ := eval_binary_ok evaluated
      rw [rightIH ofRight, leftIH ofLeft, targets, List.mem_append, or_assoc]
  | assign target tree ih =>
      obtain ⟨number, middle, ofValue, -, rfl⟩ := eval_assign_ok evaluated
      rw [targets, List.mem_append, List.mem_singleton, ← or_assoc, ← ih ofValue, Store.get?_set]
      by_cases same : target = name
      · simp [same]
      · simp [same, Ne.symm same]

theorem isSome_get?_eval (tree : Expr) {name : String} (bound : (store.get? name).isSome = true) :
    ((tree.eval store).2.get? name).isSome = true := by
  rw [eval_store]
  exact Store.isSome_get?_setAll bound _

theorem get?_eval_of_not_mem {tree : Expr} {name : String} (other : name ∉ tree.targets) :
    (tree.eval store).2.get? name = store.get? name := by
  rw [eval_store]
  refine Store.get?_setAll_of_not_mem fun write member same => ?_
  exact other (same ▸ fst_mem_targets member)

/-! ## Success -/

theorem exists_eval_neg_iff {operand : Expr} :
    (∃ value after, (neg operand).eval store = (.ok value, after)) ↔
      operand.isComparison = false ∧ ∃ value after, operand.eval store = (.ok value, after) := by
  constructor
  · rintro ⟨value, after, evaluated⟩
    obtain ⟨number, ofOperand, -⟩ := eval_neg_ok evaluated
    obtain ⟨succeeds, plain⟩ := exists_number_iff.mp ⟨number, ofOperand⟩
    exact ⟨plain, _, _, ofOperand⟩
  · rintro ⟨plain, value, after, ofOperand⟩
    obtain ⟨number, evaluated⟩ := exists_number_iff.mpr ⟨⟨value, ofOperand⟩, plain⟩
    exact ⟨.number (-number), after, by simp only [eval, evaluated]⟩

theorem exists_eval_binary_iff {op : BinaryOp} {column : Nat} {left right : Expr} :
    (∃ value after, (binary op column left right).eval store = (.ok value, after)) ↔
      left.isComparison = false ∧ right.isComparison = false ∧
        ∃ first middle, left.eval store = (.ok first, middle) ∧
          ∃ second after, right.eval middle = (.ok second, after) := by
  constructor
  · rintro ⟨value, after, evaluated⟩
    obtain ⟨first, second, middle, ofLeft, ofRight, -⟩ := eval_binary_ok evaluated
    exact ⟨(exists_number_iff.mp ⟨first, ofLeft⟩).2, (exists_number_iff.mp ⟨second, ofRight⟩).2,
      _, middle, ofLeft, _, after, ofRight⟩
  · rintro ⟨plainLeft, plainRight, first, middle, ofLeft, second, after, ofRight⟩
    obtain ⟨leftNumber, evaluatedLeft⟩ := exists_number_iff.mpr ⟨⟨first, ofLeft⟩, plainLeft⟩
    obtain ⟨rightNumber, evaluatedRight⟩ := exists_number_iff.mpr ⟨⟨second, ofRight⟩, plainRight⟩
    refine ⟨op.apply leftNumber rightNumber, after, ?_⟩
    simp only [eval, evaluatedLeft, evaluatedRight, BinaryOp.combine]

theorem exists_eval_assign_iff {target : String} {tree : Expr} :
    (∃ value after, (assign target tree).eval store = (.ok value, after)) ↔
      tree.isComparison = false ∧ ∃ value after, tree.eval store = (.ok value, after) := by
  constructor
  · rintro ⟨value, after, evaluated⟩
    obtain ⟨number, middle, ofValue, -, -⟩ := eval_assign_ok evaluated
    exact ⟨(exists_number_iff.mp ⟨number, ofValue⟩).2, _, middle, ofValue⟩
  · rintro ⟨plain, value, after, ofValue⟩
    obtain ⟨number, evaluated⟩ := exists_number_iff.mpr ⟨⟨value, ofValue⟩, plain⟩
    exact ⟨.number number, after.set target number, by simp only [eval, evaluated, Store.assign]⟩

theorem exists_eval_iff (tree : Expr) (store : Store) :
    (∃ value after, tree.eval store = (.ok value, after)) ↔
      tree.OperandsAreNumeric ∧
        ReadsBound (fun name => (store.get? name).isSome = true) tree.accesses := by
  induction tree generalizing store with
  | number number =>
      simp [eval, OperandsAreNumeric, subtrees, operands, accesses, readsBound_nil]
  | var name column =>
      rw [accesses, readsBound_reads_iff, Option.isSome_iff_exists]
      cases found : store.get? name with
      | none => simp [eval, found]
      | some number => simp [eval, found, OperandsAreNumeric, subtrees, operands]
  | neg operand ih =>
      rw [exists_eval_neg_iff, ih, operandsAreNumeric_neg, accesses, and_assoc]
  | binary op column left right leftIH rightIH =>
      rw [exists_eval_binary_iff, operandsAreNumeric_binary, accesses, readsBound_append_iff]
      -- The right operand finds the names that the left one has left bound.
      have behind (first : Value) (middle : Store) (ofLeft : left.eval store = (.ok first, middle)) :
          (∃ second after, right.eval middle = (.ok second, after)) ↔
            right.OperandsAreNumeric ∧ ReadsBound
              (fun name => (store.get? name).isSome = true ∨ .writes name ∈ left.accesses)
              right.accesses := by
        rw [rightIH]
        refine and_congr_right' (ReadsBound.congr (fun name => ?_) _)
        rw [isSome_get?_of_eval ofLeft, writes_mem_accesses_iff]
      constructor
      · rintro ⟨plainLeft, plainRight, first, middle, ofLeft, ofRight⟩
        obtain ⟨numericLeft, boundLeft⟩ := (leftIH store).mp ⟨first, middle, ofLeft⟩
        obtain ⟨numericRight, boundRight⟩ := (behind first middle ofLeft).mp ofRight
        exact ⟨⟨⟨plainLeft, numericLeft⟩, plainRight, numericRight⟩, boundLeft, boundRight⟩
      · rintro ⟨⟨⟨plainLeft, numericLeft⟩, plainRight, numericRight⟩, boundLeft, boundRight⟩
        obtain ⟨first, middle, ofLeft⟩ := (leftIH store).mpr ⟨numericLeft, boundLeft⟩
        exact ⟨plainLeft, plainRight, first, middle, ofLeft,
          (behind first middle ofLeft).mpr ⟨numericRight, boundRight⟩⟩
  | assign target tree ih =>
      have last := readsBound_writes
        (fun name => (store.get? name).isSome = true ∨ .writes name ∈ tree.accesses) target
      rw [exists_eval_assign_iff, ih, operandsAreNumeric_assign, accesses, readsBound_append_iff,
        and_iff_left last, and_assoc]

/-- Evaluation gives a value exactly if no comparison is an operand and every name is bound
when it is read, be it from the start or by an assignment that has been completed. The value
is then a truth value exactly if the tree is a comparison, and what is bound are the names from
the start and all targets. In any case no name is unbound, and names that are no targets keep
their numbers. -/
theorem eval_succeeds_iff (tree : Expr) (store : Store) :
    ((∃ value, (tree.eval store).1 = .ok value) ↔
      (∀ node ∈ tree.subtrees, ∀ operand ∈ node.operands, operand.isComparison = false) ∧
      ∀ before name after, tree.accesses = before ++ .reads name :: after →
        (store.get? name).isSome = true ∨ .writes name ∈ before) ∧
    (∀ value, (tree.eval store).1 = .ok value →
      (value.kind = .bool ↔ tree.isComparison = true) ∧
      ∀ name, ((tree.eval store).2.get? name).isSome = true ↔
        (store.get? name).isSome = true ∨ name ∈ tree.targets) ∧
    (∀ name, (store.get? name).isSome = true → ((tree.eval store).2.get? name).isSome = true) ∧
    ∀ name, name ∉ tree.targets → (tree.eval store).2.get? name = store.get? name := by
  refine ⟨?_, ?_, fun name bound => isSome_get?_eval tree bound,
    fun name other => get?_eval_of_not_mem other⟩
  · rw [← OperandsAreNumeric, ← ReadsBound, ← exists_eval_iff]
    constructor
    · rintro ⟨value, succeeds⟩
      exact ⟨value, _, Prod.ext succeeds rfl⟩
    · rintro ⟨value, after, evaluated⟩
      exact ⟨value, congrArg Prod.fst evaluated⟩
  · intro value succeeds
    have evaluated : tree.eval store = (.ok value, (tree.eval store).2) := Prod.ext succeeds rfl
    exact ⟨kind_of_eval evaluated, isSome_get?_of_eval evaluated⟩

end Expr

end SceneScript
