import SceneScript.Proofs.Scene.Encounters
import SceneScript.Proofs.Session.History

/-!
# The effect of one frame

A frame first takes the click, then moves the selected object and lets it pulse, and looks
for collisions at the end. By `tick_eq` it is a list of edits of the scene, and each of them
changes the selected object or paints objects, so that all others keep their place, their
size and their opacity. The collision pass at the end finds nothing to do a second time.
-/

set_option autoImplicit false

namespace SceneScript

/-! ## Edits of a frame -/

/-- What a frame can do to a scene: it adjusts the selected object, or looks for collisions. -/
inductive Scene.Operation.IsOfFrame (selection : Option String) : Scene.Operation → Prop
  | adjust {name : String} {change : Object → Object} (selected : selection = some name)
      (keeps : ∀ object : Object, (change object).shape = object.shape ∧
        (change object).collidable = object.collidable) :
      IsOfFrame selection (.modify name change)
  | collide : IsOfFrame selection .collide

/-- What a frame leaves of an object. -/
structure Object.KeptInFrame (selected : Prop) (before after : Object) : Prop where
  shape : after.shape = before.shape
  collidable : after.collidable = before.collidable
  place : ¬ selected → after.x = before.x ∧ after.y = before.y ∧ after.size = before.size ∧
    after.opacity = before.opacity

namespace Object.KeptInFrame

variable {selected : Prop}

theorem refl (object : Object) : KeptInFrame selected object object :=
  ⟨rfl, rfl, fun _ => ⟨rfl, rfl, rfl, rfl⟩⟩

theorem trans {first second third : Object} (left : KeptInFrame selected first second)
    (right : KeptInFrame selected second third) : KeptInFrame selected first third := by
  refine ⟨right.shape.trans left.shape, right.collidable.trans left.collidable, fun free => ?_⟩
  obtain ⟨x, y, size, opacity⟩ := left.place free
  obtain ⟨x', y', size', opacity'⟩ := right.place free
  exact ⟨x'.trans x, y'.trans y, size'.trans size, opacity'.trans opacity⟩

end Object.KeptInFrame

namespace Scene

variable {selection : Option String}

theorem IsIndexed.get?_of_frame_edit {scene : Scene} (indexed : scene.IsIndexed)
    {edit : Operation} (allowed : edit.IsOfFrame selection) {name : String} {object : Object}
    (found : scene.get? name = some object) :
    ∃ after, (edit.apply scene).get? name = some after ∧
      object.KeptInFrame (selection = some name) after := by
  cases allowed with
  | @adjust other change selected keeps =>
      have changed := indexed.get?_modify other name change
      rw [found] at changed
      split at changed
      · rename_i same
        refine ⟨change object, changed, (keeps object).1, (keeps object).2, fun free => ?_⟩
        exact absurd (selected.trans (congrArg some same)) free
      · exact ⟨object, changed, .refl object⟩
  | collide =>
      have painted := indexed.get?_collide name
      rw [found] at painted
      exact ⟨_, painted, rfl, rfl, fun _ => ⟨rfl, rfl, rfl, rfl⟩⟩

theorem IsIndexed.get?_of_frame_edits {edits : List Operation}
    (allowed : ∀ edit ∈ edits, edit.IsOfFrame selection) {scene : Scene}
    (indexed : scene.IsIndexed) {name : String} {object : Object}
    (found : scene.get? name = some object) :
    ∃ after, (scene.applyAll edits).get? name = some after ∧
      object.KeptInFrame (selection = some name) after := by
  refine indexed.exists_get?_applyAll (Object.KeptInFrame (selection = some name)) .refl
    (fun _ _ _ near far => near.trans far) ?_ found
  intro edit member scene indexed object found
  exact indexed.get?_of_frame_edit (allowed edit member) found

theorem IsIndexed.names_of_frame_edits {edits : List Operation}
    (allowed : ∀ edit ∈ edits, edit.IsOfFrame selection) {scene : Scene}
    (indexed : scene.IsIndexed) : (scene.applyAll edits).names = scene.names := by
  induction edits generalizing scene with
  | nil => rfl
  | cons edit rest ih =>
      obtain ⟨first, others⟩ := List.forall_mem_cons.mp allowed
      have same : (edit.apply scene).names = scene.names := by
        cases first with
        | adjust _ _ => exact indexed.names_modify _ _
        | collide => exact scene.names_collide
      exact (ih others (indexed.apply edit)).trans same

/-! ## The click -/

theorem hit?_of_first {scene : Scene} {x y : Float} {front back : List (String × Object)}
    {name : String} {object : Object} (listed : scene.toList = front ++ (name, object) :: back)
    (missed : ∀ entry ∈ front, entry.2.contains x y = false)
    (inside : object.contains x y = true) : scene.hit? x y = some name := by
  have found : scene.toList.find? (fun entry => entry.2.contains x y) = some (name, object) := by
    rw [List.find?_eq_some_iff_append]
    refine ⟨inside, front, back, listed, fun entry member => ?_⟩
    rw [missed entry member]
    rfl
  rw [hit?, found, Option.map_some]

theorem hit?_of_missed {scene : Scene} {x y : Float}
    (missed : ∀ entry ∈ scene.toList, entry.2.contains x y = false) : scene.hit? x y = none := by
  rw [hit?, Option.map_eq_none_iff, List.find?_eq_none]
  intro entry member
  rw [missed entry member]
  exact Bool.false_ne_true

end Scene

/-! ## Frames -/

namespace Session

theorem isOfFrame_edits (session : Session) (input : FrameInput) :
    ∀ edit ∈ editsOf (session.clicked input) (session.frameChanges input) ++ [.collide],
      edit.IsOfFrame (session.clicked input) := by
  intro edit member
  obtain adjusts | collides := List.mem_append.mp member
  · cases selected : session.clicked input with
    | none =>
        rw [selected] at adjusts
        cases adjusts
    | some name =>
        rw [selected] at adjusts
        obtain ⟨change, isChange, rfl⟩ := List.mem_map.mp adjusts
        refine .adjust rfl fun object => ?_
        obtain nudges | pulses := List.mem_append.mp isChange
        · obtain ⟨direction, -, rfl⟩ := List.mem_map.mp nudges
          exact ⟨rfl, rfl⟩
        · cases List.mem_singleton.mp pulses
          exact ⟨rfl, rfl⟩
  · cases List.mem_singleton.mp collides
    exact .collide

theorem collide_tick (session : Session) (input : FrameInput) :
    (session.tick input).collide = session.tick input := by
  simp only [tick, collide, Scene.collide_again]

/-- A frame keeps the variables, the diagnostics, the names in their order, and shape and
collidability of every object. It selects the first object under the click, if there is one.
Objects other than the one that is then selected stay where they are and as they are, but
for their color. Looking for collisions again changes nothing. -/
theorem effect_of_tick {session : Session} (reached : session.IsReached) (input : FrameInput) :
    (session.tick input).store = session.store ∧
    (session.tick input).diagnostics = session.diagnostics ∧
    (session.tick input).scene.names = session.scene.names ∧
    (∀ name object, session.scene.get? name = some object →
      ∃ after, (session.tick input).scene.get? name = some after ∧
        after.shape = object.shape ∧ after.collidable = object.collidable ∧
        (¬ (session.tick input).selection = some name →
          after.x = object.x ∧ after.y = object.y ∧ after.size = object.size ∧
            after.opacity = object.opacity)) ∧
    (∀ x y, input.click = some (x, y) → ∀ front name object back,
      session.scene.toList = front ++ (name, object) :: back →
      (∀ entry ∈ front, entry.2.contains x y = false) → object.contains x y = true →
        (session.tick input).selection = some name) ∧
    ((∀ x y, input.click = some (x, y) →
      ∀ entry ∈ session.scene.toList, entry.2.contains x y = false) →
        (session.tick input).selection = session.selection) ∧
    (session.tick input).collide = session.tick input := by
  have indexed := reached.isIndexed
  have allowed := session.isOfFrame_edits input
  refine ⟨?_, ?_, ?_, ?_, ?_, ?_, session.collide_tick input⟩
  · rw [tick_eq]
  · rw [tick_eq]
  · rw [tick_eq]
    exact indexed.names_of_frame_edits allowed
  · intro name object found
    rw [tick_eq]
    obtain ⟨after, foundAfter, kept⟩ := indexed.get?_of_frame_edits allowed found
    exact ⟨after, foundAfter, kept.shape, kept.collidable, kept.place⟩
  · intro x y click front name object back listed missed inside
    rw [tick_eq]
    simp only [clicked, click, Scene.hit?_of_first listed missed inside, Option.some_or]
  · intro missed
    rw [tick_eq]
    cases click : input.click with
    | none => simp only [clicked, click]
    | some point =>
        have miss := Scene.hit?_of_missed (missed point.1 point.2 click)
        simp only [clicked, click, miss, Option.none_or]

/-- A click meets the second of two objects, which is nudged; the first stays at its place. -/
theorem effect_of_tick_of_clicked_square :
    let circle : Object := .new .circle { x := 500 }
    let session : Session := { new {} with
      scene := (Scene.empty.insert "coin" circle).insert "player" (.new .square {}) }
    let final := session.tick { click := some (60, 60), nudges := [.left] }
    final.selection = some "player" ∧
      (∃ after, final.scene.get? "coin" = some after ∧ after.x = circle.x) ∧
      final.collide = final := by
  intro circle session final
  have indexed : (Scene.empty.insert "coin" circle).IsIndexed := Scene.isIndexed_empty.insert _ _
  have reached : session.IsReached :=
    ⟨{}, [.edit (.insert "coin" circle), .edit (.insert "player" (.new .square {}))],
      .cons rfl (.cons rfl (.nil session))⟩
  have listed : session.scene.toList =
      [("coin", circle)] ++ ("player", .new .square {}) :: [] := by
    rw [indexed.toList_insert, Scene.isIndexed_empty.names_insert,
      Scene.isIndexed_empty.toList_insert]
    rfl
  have found : session.scene.get? "coin" = some circle := by
    rw [indexed.get?_insert, if_neg (by decide), Scene.isIndexed_empty.get?_insert, if_pos rfl]
  obtain ⟨-, -, -, kept, chosen, -, stable⟩ := effect_of_tick reached
    { click := some (60, 60), nudges := [.left] }
  have selection : final.selection = some "player" := by
    refine chosen 60 60 rfl _ _ _ _ listed (fun entry member => ?_) (by decide +kernel)
    cases List.mem_singleton.mp member
    decide +kernel
  obtain ⟨after, foundAfter, -, -, place⟩ := kept "coin" circle found
  refine ⟨selection, ⟨after, foundAfter, (place fun same => ?_).1⟩, stable⟩
  exact absurd (Option.some.inj (selection.symm.trans same)) (by decide)

end Session

end SceneScript
