import SceneScript.Expr.Eval

/-!
# Assignments that take effect

Evaluation changes the store by assignments only. `Expr.writes` lists those that take
effect, in their order: an assignment does if its right-hand side has a value that is
a number, and nothing behind a fault is evaluated. The store afterwards is the store
before with these bindings, whether or not the tree has a value.
-/

set_option autoImplicit false

namespace SceneScript

namespace Store

theorem toList_eq_iff {first second : Store} :
    first.toList = second.toList ↔ ∀ name, first.get? name = second.get? name := by
  rw [toList, toList, ← Std.TreeMap.equiv_iff_toList_eq]
  constructor
  · intro same name
    exact same.getElem?_eq
  · intro same
    exact Std.TreeMap.Equiv.of_forall_constGet?_eq same

/-- Binds names one after another. -/
def setAll (store : Store) (writes : List (String × Float)) : Store :=
  writes.foldl (fun store write => store.set write.1 write.2) store

theorem setAll_append (store : Store) (first second : List (String × Float)) :
    store.setAll (first ++ second) = (store.setAll first).setAll second :=
  List.foldl_append

theorem get?_setAll (store : Store) (writes : List (String × Float)) (name : String) :
    (store.setAll writes).get? name = (writes.reverse.lookup name).or (store.get? name) := by
  induction writes generalizing store with
  | nil => rfl
  | cons write rest ih =>
      rcases write with ⟨target, value⟩
      have step : store.setAll ((target, value) :: rest) =
          (store.set target value).setAll rest := rfl
      rw [step, ih, get?_set, List.reverse_cons, List.lookup_append, Option.or_assoc,
        List.lookup_cons, List.lookup_nil]
      by_cases same : target = name
      · simp [same]
      · have other : (name == target) = false := by simpa using fun equal => same equal.symm
        simp [same, other]

theorem isSome_get?_setAll {store : Store} {name : String}
    (bound : (store.get? name).isSome) (writes : List (String × Float)) :
    ((store.setAll writes).get? name).isSome := by
  rw [get?_setAll, Option.isSome_or, bound, Bool.or_true]

theorem get?_setAll_of_not_mem {store : Store} {writes : List (String × Float)} {name : String}
    (unwritten : ∀ write ∈ writes, write.1 ≠ name) :
    (store.setAll writes).get? name = store.get? name := by
  have none : writes.reverse.lookup name = none := by
    rw [List.lookup_eq_none_iff]
    intro write member
    simpa using (unwritten write (List.mem_reverse.mp member)).symm
  rw [get?_setAll, none, Option.none_or]

theorem toList_setAll_eq_iff (store : Store) (writes : List (String × Float)) :
    (store.setAll writes).toList = store.toList ↔
      ∀ name value, writes.reverse.lookup name = some value → store.get? name = some value := by
  rw [toList_eq_iff]
  constructor
  · intro same name value last
    rw [← same name, get?_setAll, last, Option.some_or]
  · intro bound name
    rw [get?_setAll]
    cases last : writes.reverse.lookup name with
    | none => rfl
    | some value => rw [bound name value last, Option.some_or]

end Store

namespace Expr

/-- The assignments that take effect when a tree is evaluated. -/
def writes : Expr → Store → List (String × Float)
  | .number _, _ => []
  | .var _ _, _ => []
  | .neg operand, store => operand.writes store
  | .binary _ _ left right, store =>
    match left.eval store with
    | (.error _, _) => left.writes store
    | (.ok _, between) => left.writes store ++ right.writes between
  | .assign target value, store =>
    match (value.eval store).1 with
    | .ok (.number assigned) => value.writes store ++ [(target, assigned)]
    | _ => value.writes store

/-- Evaluation leaves the store with the assignments that take effect. -/
theorem eval_store (expr : Expr) (store : Store) :
    (expr.eval store).2 = store.setAll (expr.writes store) := by
  induction expr generalizing store with
  | number value => rfl
  | var name column =>
      rw [eval]
      split
      · rfl
      · rfl
  | neg operand ih =>
      have operandStore := ih store
      rw [eval, writes]
      generalize operand.eval store = evaluated at operandStore ⊢
      rcases evaluated with ⟨result, after⟩
      cases result with
      | error fault => exact operandStore
      | ok value =>
          cases value with
          | number value => exact operandStore
          | bool truth => exact operandStore
  | binary op column left right leftIH rightIH =>
      have leftStore := leftIH store
      rw [eval, writes]
      generalize left.eval store = evaluated at leftStore ⊢
      rcases evaluated with ⟨result, between⟩
      cases result with
      | error fault => exact leftStore
      | ok leftValue =>
          have rightStore := rightIH between
          simp only [Store.setAll_append, ← leftStore, ← rightStore]
          rcases right.eval between with ⟨rightResult, after⟩
          cases rightResult with
          | error fault => rfl
          | ok rightValue => rfl
  | assign target value ih =>
      have valueStore := ih store
      rw [eval, writes]
      generalize value.eval store = evaluated at valueStore ⊢
      rcases evaluated with ⟨result, between⟩
      cases result with
      | error fault => exact valueStore
      | ok result =>
          cases result with
          | number assigned =>
              simp only [Store.setAll_append, ← valueStore]
              rfl
          | bool truth => exact valueStore

theorem fst_mem_targets {expr : Expr} {store : Store} {write : String × Float}
    (member : write ∈ expr.writes store) : write.1 ∈ expr.targets := by
  induction expr generalizing store with
  | number value => cases member
  | var name column => cases member
  | neg operand ih => exact ih member
  | binary op column left right leftIH rightIH =>
      rw [writes] at member
      rw [targets, List.mem_append]
      split at member
      · exact .inl (leftIH member)
      · rcases List.mem_append.mp member with member | member
        · exact .inl (leftIH member)
        · exact .inr (rightIH member)
  | assign target value ih =>
      rw [writes] at member
      rw [targets, List.mem_append]
      split at member
      · rcases List.mem_append.mp member with member | member
        · exact .inl (ih member)
        · cases List.mem_singleton.mp member
          exact .inr (List.mem_singleton.mpr rfl)
      · exact .inl (ih member)

end Expr

end SceneScript
