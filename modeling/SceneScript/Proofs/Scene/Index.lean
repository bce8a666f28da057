import Mathlib.Data.List.DropRight
import Mathlib.Data.List.Nodup
import SceneScript.Proofs.Scene.Collision

/-!
# Scenes as maps in the order of insertion

A scene is built by inserting and changing objects, by collision passes and by clearing.
Whatever the history, the index of the scene stays exact: it gives the position of each
name that is listed. From this follows all that is known of a scene by names: an object
is found under the name under which it was inserted last, changed as it was changed
since, and the names stand in the order in which they came.
-/

set_option autoImplicit false

namespace SceneScript.Scene

/-- The index gives the position of each name that is listed, and of no other. -/
def IsIndexed (scene : Scene) : Prop :=
  ∀ (name : String) (position : Nat),
    scene.index[name]? = some position ↔ scene.names[position]? = some name

section
variable {scene : Scene} (indexed : scene.IsIndexed)
include indexed

theorem IsIndexed.nodup : scene.names.Nodup := by
  refine List.nodup_iff_getElem?_ne_getElem?.mpr fun first second order short same => ?_
  have atSecond := List.getElem?_eq_getElem short
  have left := (indexed _ first).mpr (same.trans atSecond)
  have right := (indexed _ second).mpr atSecond
  have equal : first = second := Option.some.inj (left.symm.trans right)
  omega

theorem IsIndexed.mem_names_iff (name : String) :
    name ∈ scene.names ↔ ∃ position, scene.index[name]? = some position := by
  rw [List.mem_iff_getElem?]
  exact exists_congr fun position => (indexed name position).symm

theorem IsIndexed.contains_iff (name : String) :
    scene.contains name = true ↔ name ∈ scene.names := by
  rw [contains, Std.HashMap.contains_eq_isSome_getElem?, Option.isSome_iff_exists,
    indexed.mem_names_iff]

theorem IsIndexed.of_names {other : Scene} (sameNames : other.names = scene.names)
    (sameIndex : other.index = scene.index) : other.IsIndexed := by
  rw [IsIndexed, sameNames, sameIndex]
  exact indexed

end

/-! ## Entries by name -/

theorem getElem?_names (scene : Scene) (position : Nat) :
    scene.names[position]? = scene.entries[position]?.map Prod.fst := by
  rw [names, toList, List.getElem?_map, Array.getElem?_toList]

theorem lookup_eq_some_of_getElem? {entries : List (String × Object)}
    (nodup : (entries.map Prod.fst).Nodup) {position : Nat} {name : String} {object : Object}
    (found : entries[position]? = some (name, object)) : entries.lookup name = some object := by
  induction entries generalizing position with
  | nil => cases found
  | cons entry rest ih =>
      obtain ⟨first, other⟩ := entry
      obtain ⟨fresh, nodupRest⟩ := List.nodup_cons.mp nodup
      cases position with
      | zero =>
          cases found
          exact List.lookup_cons_self
      | succ position =>
          have later : name ∈ rest.map Prod.fst :=
            List.mem_map.mpr ⟨_, List.mem_of_getElem? found, rfl⟩
          have distinct : (name == first) = false :=
            beq_false_of_ne fun same => fresh (same ▸ later)
          rw [List.lookup_cons, distinct]
          exact ih nodupRest found

theorem lookup_eq_none_of_not_mem {entries : List (String × Object)} {name : String}
    (absent : name ∉ entries.map Prod.fst) : entries.lookup name = none := by
  refine List.lookup_eq_none_iff.mpr fun entry member => ?_
  exact bne_iff_ne.mpr fun same => absent (List.mem_map.mpr ⟨entry, member, same.symm⟩)

theorem exists_lookup_of_mem {entries : List (String × Object)} {name : String}
    (member : name ∈ entries.map Prod.fst) : ∃ object, entries.lookup name = some object := by
  cases found : entries.lookup name with
  | some object => exact ⟨object, rfl⟩
  | none =>
      obtain ⟨entry, listed, rfl⟩ := List.mem_map.mp member
      exact absurd rfl (bne_iff_ne.mp (List.lookup_eq_none_iff.mp found entry listed))

theorem IsIndexed.get?_eq_lookup {scene : Scene} (indexed : scene.IsIndexed) (name : String) :
    scene.get? name = scene.toList.lookup name := by
  rw [get?]
  cases found : scene.index[name]? with
  | none =>
      refine (lookup_eq_none_of_not_mem fun member => ?_).symm
      obtain ⟨position, located⟩ := (indexed.mem_names_iff name).mp member
      rw [found] at located
      cases located
  | some position =>
      have named := (indexed name position).mp found
      rw [getElem?_names] at named
      obtain ⟨⟨_, object⟩, entry, rfl⟩ := Option.map_eq_some_iff.mp named
      have listed : scene.toList[position]? = some (_, object) :=
        Array.getElem?_toList.trans entry
      simp only [entry, Option.map_some, lookup_eq_some_of_getElem? indexed.nodup listed]

/-- Changes the objects of the entries of a name. -/
def update (name : String) (change : Object → Object) (entry : String × Object) :
    String × Object :=
  if entry.1 = name then (entry.1, change entry.2) else entry

theorem map_fst_update (name : String) (change : Object → Object)
    (entries : List (String × Object)) :
    (entries.map (update name change)).map Prod.fst = entries.map Prod.fst := by
  rw [List.map_map]
  refine List.map_congr_left fun entry _ => ?_
  rw [Function.comp, update]
  split <;> rfl

theorem lookup_update (name other : String) (change : Object → Object)
    (entries : List (String × Object)) :
    (entries.map (update name change)).lookup other =
      if name = other then (entries.lookup other).map change else entries.lookup other := by
  induction entries with
  | nil => simp
  | cons entry rest ih =>
      obtain ⟨first, object⟩ := entry
      rw [List.map_cons, update]
      by_cases here : other = first
      · subst here
        by_cases same : other = name
        · simp [same]
        · have distinct : ¬ name = other := fun equal => same equal.symm
          simp [same, distinct]
      · have passed : (other == first) = false := beq_false_of_ne here
        split <;> simp only [List.lookup_cons, passed, ih]

theorem map_update_of_not_mem {name : String} {entries : List (String × Object)}
    (absent : name ∉ entries.map Prod.fst) (change : Object → Object) :
    entries.map (update name change) = entries := by
  have same : ∀ entry ∈ entries, update name change entry = entry := fun entry member =>
    if_neg fun found => absent (List.mem_map.mpr ⟨entry, member, found⟩)
  exact (List.map_congr_left same).trans (List.map_id' entries)

/-! ## Operations -/

theorem toList_modifyAt {scene : Scene} (indexed : scene.IsIndexed) {name : String}
    {position : Nat} (located : scene.index[name]? = some position) (change : Object → Object) :
    (scene.entries.modify position fun entry => (entry.1, change entry.2)).toList =
      scene.toList.map (update name change) := by
  have listed : scene.entries.toList = scene.toList := rfl
  refine List.ext_getElem? fun other => ?_
  rw [Array.toList_modify, List.getElem?_modify, List.getElem?_map, listed]
  cases found : scene.toList[other]? with
  | none => rfl
  | some entry =>
      have named : scene.names[other]? = some entry.1 := by
        rw [names, List.getElem?_map, found, Option.map_some]
      have here : position = other ↔ entry.1 = name := by
        constructor
        · rintro rfl
          exact Option.some.inj (named.symm.trans ((indexed name position).mp located))
        · rintro rfl
          exact Option.some.inj (located.symm.trans ((indexed _ other).mpr named))
      simp only [here, update, Option.map_some]
      split <;> rfl

theorem getElem?_concat_eq_some_iff {names : List String} {name other : String} {position : Nat} :
    (names ++ [name])[position]? = some other ↔
      names[position]? = some other ∨ position = names.length ∧ name = other := by
  grind

section
variable {scene : Scene} (indexed : scene.IsIndexed) (name : String)
include indexed

theorem IsIndexed.not_mem_names (missing : scene.index[name]? = none) : name ∉ scene.names := by
  intro member
  obtain ⟨position, located⟩ := (indexed.mem_names_iff name).mp member
  rw [missing] at located
  cases located

theorem IsIndexed.toList_modify (change : Object → Object) :
    (scene.modify name change).toList = scene.toList.map (update name change) := by
  rw [modify]
  cases located : scene.index[name]? with
  | some position => exact toList_modifyAt indexed located change
  | none => exact (map_update_of_not_mem (indexed.not_mem_names name located) change).symm

theorem IsIndexed.toList_insert (object : Object) :
    (scene.insert name object).toList =
      if name ∈ scene.names then scene.toList.map (update name fun _ => object)
      else scene.toList ++ [(name, object)] := by
  rw [insert]
  cases located : scene.index[name]? with
  | some position =>
      rw [if_pos ((indexed.mem_names_iff name).mpr ⟨position, located⟩)]
      exact toList_modifyAt indexed located fun _ => object
  | none =>
      rw [if_neg (indexed.not_mem_names name located)]
      exact Array.toList_push

theorem IsIndexed.names_modify (change : Object → Object) :
    (scene.modify name change).names = scene.names := by
  rw [names, indexed.toList_modify, map_fst_update, names]

theorem IsIndexed.names_insert (object : Object) :
    (scene.insert name object).names =
      if name ∈ scene.names then scene.names else scene.names ++ [name] := by
  rw [names, indexed.toList_insert]
  split
  · rw [map_fst_update, names]
  · rw [List.map_append, names, List.map_singleton]

theorem IsIndexed.modify (change : Object → Object) : (scene.modify name change).IsIndexed := by
  refine indexed.of_names (indexed.names_modify name change) ?_
  rw [Scene.modify]
  cases scene.index[name]? <;> rfl

theorem IsIndexed.insert (object : Object) : (scene.insert name object).IsIndexed := by
  have newNames := indexed.names_insert name object
  cases located : scene.index[name]? with
  | some position =>
      rw [if_pos ((indexed.mem_names_iff name).mpr ⟨position, located⟩)] at newNames
      refine indexed.of_names newNames ?_
      simp only [Scene.insert, located]
  | none =>
      have absent := indexed.not_mem_names name located
      rw [if_neg absent] at newNames
      intro other position
      have size : scene.entries.size = scene.names.length := by simp [names, toList]
      have newIndex : (scene.insert name object).index[other]? =
          if name == other then some scene.names.length else scene.index[other]? := by
        simp only [Scene.insert, located, Std.HashMap.getElem?_insert, size]
      rw [newNames, newIndex, getElem?_concat_eq_some_iff]
      by_cases same : name = other
      · subst same
        have notBefore : ¬ scene.names[position]? = some name := fun found =>
          absent (List.mem_of_getElem? found)
        simp only [beq_self_eq_true, if_true, Option.some.injEq, notBefore, false_or, and_true]
        exact eq_comm
      · simp only [beq_false_of_ne same, Bool.false_eq_true, if_false, same, and_false, or_false]
        exact indexed other position

end

theorem isIndexed_empty : empty.IsIndexed := by
  intro name position
  simp [empty, names, toList]

theorem get?_empty (name : String) : empty.get? name = none := by
  simp [get?, empty]

theorem names_collide (scene : Scene) : scene.collide.names = scene.names :=
  map_fst_of_isRepainted (collisionPass_isRepainted scene.toList)

theorem IsIndexed.collide {scene : Scene} (indexed : scene.IsIndexed) : scene.collide.IsIndexed :=
  indexed.of_names scene.names_collide rfl

/-! ## Objects by name -/

section
variable {scene : Scene} (indexed : scene.IsIndexed) (name other : String)
include indexed

theorem IsIndexed.get?_modify (change : Object → Object) :
    (scene.modify name change).get? other =
      if name = other then (scene.get? other).map change else scene.get? other := by
  rw [(indexed.modify name change).get?_eq_lookup, indexed.toList_modify, lookup_update,
    indexed.get?_eq_lookup]

theorem IsIndexed.get?_insert (object : Object) :
    (scene.insert name object).get? other =
      if name = other then some object else scene.get? other := by
  rw [(indexed.insert name object).get?_eq_lookup, indexed.toList_insert, indexed.get?_eq_lookup]
  by_cases present : name ∈ scene.names
  · rw [if_pos present, lookup_update]
    by_cases same : name = other
    · subst same
      obtain ⟨old, found⟩ := exists_lookup_of_mem present
      rw [if_pos rfl, if_pos rfl, found, Option.map_some]
    · rw [if_neg same, if_neg same]
  · rw [if_neg present, List.lookup_append]
    by_cases same : name = other
    · subst same
      rw [lookup_eq_none_of_not_mem present, Option.none_or, List.lookup_cons_self, if_pos rfl]
    · have distinct : (other == name) = false := beq_false_of_ne (Ne.symm same)
      rw [List.lookup_cons, distinct, List.lookup_nil, Option.or_none, if_neg same]

theorem IsIndexed.get?_collide :
    scene.collide.get? name =
      (scene.get? name).map (recolor (collisionPass scene.toList) name) := by
  rw [indexed.collide.get?_eq_lookup, indexed.get?_eq_lookup]
  exact lookup_of_isRepainted (collisionPass_isRepainted scene.toList) name

end

/-! ## Histories -/

inductive Operation where
  | insert (name : String) (object : Object)
  | modify (name : String) (change : Object → Object)
  | collide
  | clear

namespace Operation

def apply (scene : Scene) : Operation → Scene
  | .insert name object => scene.insert name object
  | .modify name change => scene.modify name change
  | .collide => scene.collide
  | .clear => empty

def inserted? : Operation → Option String
  | .insert name _ => some name
  | _ => none

def isClear : Operation → Bool
  | .clear => true
  | _ => false

/-- Whether the operation does away with the object of a name. -/
def Replaces (name : String) (operation : Operation) : Prop :=
  operation.inserted? = some name ∨ operation.isClear = true

/-- What becomes of the object of a name, unless it is done away with. -/
def change (scene : Scene) (name : String) : Operation → Object → Object
  | .modify other change => if other = name then change else id
  | .collide => recolor (collisionPass scene.toList) name
  | .insert _ _ => id
  | .clear => id

end Operation

def applyAll (scene : Scene) (operations : List Operation) : Scene :=
  operations.foldl Operation.apply scene

def ofHistory (operations : List Operation) : Scene :=
  empty.applyAll operations

/-- What operations make of the object of a name that is never done away with. -/
def evolve (name : String) : Scene → List Operation → Object → Object
  | _, [], object => object
  | scene, operation :: rest, object =>
    evolve name (operation.apply scene) rest (operation.change scene name object)

theorem IsIndexed.apply {scene : Scene} (indexed : scene.IsIndexed) (operation : Operation) :
    (operation.apply scene).IsIndexed := by
  cases operation with
  | insert name object => exact indexed.insert name object
  | modify name change => exact indexed.modify name change
  | collide => exact indexed.collide
  | clear => exact isIndexed_empty

theorem IsIndexed.applyAll {scene : Scene} (indexed : scene.IsIndexed)
    (operations : List Operation) : (scene.applyAll operations).IsIndexed := by
  induction operations generalizing scene with
  | nil => exact indexed
  | cons operation rest ih => exact ih (indexed.apply operation)

theorem isIndexed_ofHistory (operations : List Operation) : (ofHistory operations).IsIndexed :=
  isIndexed_empty.applyAll operations

theorem ofHistory_concat (operations : List Operation) (operation : Operation) :
    ofHistory (operations ++ [operation]) = operation.apply (ofHistory operations) := by
  rw [ofHistory, applyAll, List.foldl_concat]
  rfl

theorem ofHistory_append_cons (before after : List Operation) (operation : Operation) :
    ofHistory (before ++ operation :: after) =
      (ofHistory (before ++ [operation])).applyAll after := by
  rw [List.append_cons, ofHistory, applyAll, List.foldl_append]
  rfl

theorem IsIndexed.names_apply {scene : Scene} (indexed : scene.IsIndexed)
    (operation : Operation) (keeps : operation.isClear = false) :
    (operation.apply scene).names =
      match operation.inserted? with
      | some name => if name ∈ scene.names then scene.names else scene.names ++ [name]
      | none => scene.names := by
  cases operation with
  | insert name object => exact indexed.names_insert name object
  | modify name change => exact indexed.names_modify name change
  | collide => exact scene.names_collide
  | clear => cases keeps

theorem IsIndexed.get?_apply {scene : Scene} (indexed : scene.IsIndexed) {name : String}
    {operation : Operation} (kept : ¬ operation.Replaces name) :
    (operation.apply scene).get? name = (scene.get? name).map (operation.change scene name) := by
  cases operation with
  | insert other object =>
      have distinct : ¬ other = name := fun same => kept (.inl (congrArg some same))
      rw [Operation.apply, indexed.get?_insert, if_neg distinct, Operation.change, Option.map_id,
        id]
  | modify other change =>
      rw [Operation.apply, indexed.get?_modify, Operation.change]
      split
      · rfl
      · rw [Option.map_id, id]
  | collide => exact indexed.get?_collide name
  | clear => exact absurd (.inr rfl) kept

theorem IsIndexed.get?_applyAll {scene : Scene} (indexed : scene.IsIndexed) {name : String}
    {object : Object} (found : scene.get? name = some object) {operations : List Operation}
    (kept : ∀ operation ∈ operations, ¬ operation.Replaces name) :
    (scene.applyAll operations).get? name = some (evolve name scene operations object) := by
  induction operations generalizing scene object with
  | nil => exact found
  | cons operation rest ih =>
      obtain ⟨first, others⟩ := List.forall_mem_cons.mp kept
      refine ih (indexed.apply operation) ?_ others
      rw [indexed.get?_apply first, found, Option.map_some]

theorem evolve_concat (name : String) (scene : Scene) (operations : List Operation)
    (operation : Operation) (object : Object) :
    evolve name scene (operations ++ [operation]) object =
      operation.change (scene.applyAll operations) name (evolve name scene operations object) := by
  induction operations generalizing scene object with
  | nil => rfl
  | cons first rest ih => exact ih (first.apply scene) (first.change scene name object)

/-- The object is what was inserted last under the name, changed as it was since. -/
def HoldsAfter (operations : List Operation) (name : String) (object : Object) : Prop :=
  ∃ before inserted after, operations = before ++ Operation.insert name inserted :: after ∧
    (∀ operation ∈ after, ¬ operation.Replaces name) ∧
    object = evolve name (ofHistory (before ++ [.insert name inserted])) after inserted

theorem get?_ofHistory_of_holdsAfter {operations : List Operation} {name : String}
    {object : Object} (holds : HoldsAfter operations name object) :
    (ofHistory operations).get? name = some object := by
  obtain ⟨before, inserted, after, rfl, kept, rfl⟩ := holds
  have found : (ofHistory (before ++ [.insert name inserted])).get? name = some inserted := by
    rw [ofHistory_concat, Operation.apply, (isIndexed_ofHistory before).get?_insert, if_pos rfl]
  rw [ofHistory_append_cons]
  exact (isIndexed_ofHistory _).get?_applyAll found kept

theorem HoldsAfter.concat {operations : List Operation} {name : String} {object : Object}
    (holds : HoldsAfter operations name object) {operation : Operation}
    (kept : ¬ operation.Replaces name) :
    HoldsAfter (operations ++ [operation]) name
      (operation.change (ofHistory operations) name object) := by
  obtain ⟨before, inserted, after, rfl, others, rfl⟩ := holds
  refine ⟨before, inserted, after ++ [operation], ?_, ?_, ?_⟩
  · rw [List.append_assoc, List.cons_append]
  · intro other member
    rcases List.mem_append.mp member with earlier | last
    · exact others other earlier
    · rw [List.mem_singleton.mp last]
      exact kept
  · rw [evolve_concat, ofHistory_append_cons]

theorem holdsAfter_of_get?_ofHistory {operations : List Operation} {name : String}
    {object : Object} (found : (ofHistory operations).get? name = some object) :
    HoldsAfter operations name object := by
  -- From the end of the history: the last operation made the object, did away with it, or
  -- changed what was there.
  induction operations using List.reverseRecOn generalizing object with
  | nil => cases (get?_empty name).symm.trans found
  | append_singleton operations operation ih =>
      rw [ofHistory_concat] at found
      by_cases replaces : operation.Replaces name
      · cases operation with
        | insert other inserted =>
            obtain same | clear := replaces
            · cases same
              rw [Operation.apply, (isIndexed_ofHistory operations).get?_insert, if_pos rfl] at found
              cases found
              exact ⟨operations, _, [], rfl, fun _ member => absurd member List.not_mem_nil, rfl⟩
            · cases clear
        | modify other change => obtain same | clear := replaces <;> contradiction
        | collide => obtain same | clear := replaces <;> contradiction
        | clear => cases (get?_empty name).symm.trans found
      · rw [(isIndexed_ofHistory operations).get?_apply replaces, Option.map_eq_some_iff] at found
        obtain ⟨old, before, rfl⟩ := found
        exact (ih before).concat replaces

theorem eraseDups_concat (names : List String) (name : String) :
    (names ++ [name]).eraseDups =
      if name ∈ names.eraseDups then names.eraseDups else names.eraseDups ++ [name] := by
  rw [List.eraseDups_append]
  by_cases present : name ∈ names <;> simp [List.removeAll, List.eraseDups_cons, present]

theorem names_ofHistory (operations : List Operation) :
    (ofHistory operations).names =
      ((operations.rtakeWhile fun operation => !operation.isClear).filterMap
        Operation.inserted?).eraseDups := by
  induction operations using List.reverseRecOn with
  | nil => rfl
  | append_singleton operations operation ih =>
      -- Clearing starts both sides again; what is inserted extends both in the same way.
      rw [ofHistory_concat, List.rtakeWhile_concat]
      cases clear : operation.isClear with
      | true =>
          cases operation with
          | clear => rfl
          | _ => cases clear
      | false =>
          rw [(isIndexed_ofHistory operations).names_apply operation clear, ih]
          rw [Bool.not_false, if_pos rfl, List.filterMap_append]
          cases inserted : operation.inserted? with
          | none => simp only [List.filterMap_cons_none inserted, List.filterMap_nil, List.append_nil]
          | some name => simp only [List.filterMap_cons_some inserted, List.filterMap_nil,
              eraseDups_concat]

/-! ## Inserting again -/

section
variable {scene : Scene} (indexed : scene.IsIndexed) {name : String}
  (listed : name ∈ scene.names) (object : Object)
include indexed listed

theorem IsIndexed.index_insert_again : (scene.insert name object).index = scene.index := by
  obtain ⟨position, located⟩ := (indexed.mem_names_iff name).mp listed
  simp only [Scene.insert, located]

theorem IsIndexed.getElem?_insert_again (position : Nat) :
    (scene.insert name object).entries[position]? =
      if scene.index[name]? = some position then some (name, object)
      else scene.entries[position]? := by
  rw [← Array.getElem?_toList, ← Array.getElem?_toList]
  have newEntries := indexed.toList_insert name object
  rw [if_pos listed] at newEntries
  rw [← toList, newEntries, List.getElem?_map, ← toList]
  simp only [indexed name position, names, List.getElem?_map]
  cases scene.toList[position]? with
  | none => simp
  | some entry =>
      simp only [Option.map_some, Option.some.injEq, update]
      split
      · rename_i same
        rw [same]
      · rfl

end

/-- Whatever is done with a scene, it is a map in the order of insertion: the names are
distinct and the index is exact, a name gives the object that was inserted last under it,
as changed since, an object inserted again stays in its place, and the names stand in the
order of their first insertion since the scene was cleared. -/
theorem ofHistory_is_ordered_map (operations : List Operation) :
    (ofHistory operations).names.Nodup ∧
    (∀ (name : String) (position : Nat), (ofHistory operations).index[name]? = some position ↔
      (ofHistory operations).entries[position]?.map Prod.fst = some name) ∧
    (∀ name object, (ofHistory operations).get? name = some object ↔
      HoldsAfter operations name object) ∧
    (∀ name, (ofHistory operations).contains name = true ↔ name ∈ (ofHistory operations).names) ∧
    (∀ name ∈ (ofHistory operations).names, ∀ object,
      ((ofHistory operations).insert name object).index = (ofHistory operations).index ∧
      ∀ position : Nat, ((ofHistory operations).insert name object).entries[position]? =
        if (ofHistory operations).index[name]? = some position then some (name, object)
        else (ofHistory operations).entries[position]?) ∧
    (ofHistory operations).names =
      ((operations.rtakeWhile fun operation => !operation.isClear).filterMap
        Operation.inserted?).eraseDups := by
  have indexed := isIndexed_ofHistory operations
  refine ⟨indexed.nodup, ?_, ?_, indexed.contains_iff, ?_, names_ofHistory operations⟩
  · intro name position
    rw [← getElem?_names]
    exact indexed name position
  · intro name object
    exact ⟨holdsAfter_of_get?_ofHistory, get?_ofHistory_of_holdsAfter⟩
  · intro name listed object
    exact ⟨indexed.index_insert_again listed object, indexed.getElem?_insert_again listed object⟩

/-- A square comes after the scene was cleared, is replaced by a circle and painted. -/
def repaintedCircle : List Operation :=
  [.insert "c" (.new .square {}), .clear, .insert "a" (.new .square {}),
    .insert "b" (.new .square {}), .collide, .insert "a" (.new .circle {}),
    .modify "a" Object.redden]

theorem ofHistory_is_ordered_map_of_repaintedCircle :
    (ofHistory repaintedCircle).names = ["a", "b"] ∧
    (ofHistory repaintedCircle).get? "a" = some (Object.new .circle {}).redden ∧
    (ofHistory repaintedCircle).contains "c" = false ∧
    ∀ object, ((ofHistory repaintedCircle).insert "b" object).entries[0]? =
      (ofHistory repaintedCircle).entries[0]? := by
  obtain ⟨-, index, holds, contains, again, names⟩ := ofHistory_is_ordered_map repaintedCircle
  have listed : (ofHistory repaintedCircle).names = ["a", "b"] := names.trans (by decide)
  refine ⟨listed, ?_, ?_, ?_⟩
  · refine (holds _ _).mpr
      ⟨repaintedCircle.take 5, .new .circle {}, [.modify "a" .redden], rfl, ?_, rfl⟩
    simp [Operation.Replaces, Operation.inserted?, Operation.isClear]
  · refine Bool.eq_false_iff.mpr fun found => ?_
    have member := (contains "c").mp found
    rw [listed] at member
    exact absurd member (by decide)
  · intro object
    have member : "b" ∈ (ofHistory repaintedCircle).names := by
      rw [listed]
      decide
    rw [(again "b" member object).2 0, if_neg]
    intro located
    have named := (index "b" 0).mp located
    rw [← getElem?_names, listed] at named
    exact absurd named (by decide)

end SceneScript.Scene
