import SceneScript.Proofs.Session.History

/-!
# What stays between two loads

Until the next script is loaded, nothing goes away: the names of the scene and the
diagnostics are only added to, and a variable that is bound stays bound. Running commands
leaves the selection and the clock alone, and gives an object another form only by creating
it anew. So the selected name stays in the scene.
-/

set_option autoImplicit false

namespace SceneScript

theorem Scene.firstName?_eq_head? (scene : Scene) : scene.firstName? = scene.names.head? := by
  rw [firstName?, ← Array.getElem?_toList, names, List.head?_map, List.head?_eq_getElem?]
  rfl

namespace Session

/-! ## Names, diagnostics and variables -/

/-- Whatever is done with a session between two loads keeps the names of the scene, the
diagnostics and the bound variables, and adds behind them at most. Running commands changes
neither the selection nor the clock. It edits the scene by creating objects as the defaults
say and by changes that leave shape, opacity and size, so that an object with another form
has been created anew. -/
theorem nothing_disappears {session final : Session} (reached : session.IsReached)
    {operation : Operation} (noLoad : operation.isLoad = false)
    (noClear : operation.isClear = false) (performed : operation.Performs session final) :
    session.scene.names <+: final.scene.names ∧
    session.diagnostics.toList <+: final.diagnostics.toList ∧
    (∀ name, (session.store.get? name).isSome → (final.store.get? name).isSome) ∧
    ∀ commands, operation = .execute commands →
      final.selection = session.selection ∧ final.time = session.time ∧
      ∃ edits : List Scene.Operation,
        (∀ edit ∈ edits, edit.IsEdit session.config.defaults commands) ∧
        final.scene = session.scene.applyAll edits ∧
        ∀ name object, session.scene.get? name = some object →
          ∃ after, final.scene.get? name = some after ∧
            (object.SameForm after ∨
              ∃ shape, .insert name (.new shape session.config.defaults) ∈ edits ∧
                (Object.new shape session.config.defaults).SameForm after) := by
  have indexed := reached.isIndexed
  have effect := performed.effect
  refine ⟨effect.names_prefix indexed noLoad noClear, effect.diagnostics noLoad,
    effect.store noLoad, ?_⟩
  intro commands isExecute
  subst isExecute
  obtain ⟨reported, writes, edits, allowed, rfl⟩ := Executes.exists_edits performed
  exact ⟨rfl, rfl, edits, allowed, rfl, fun name object found =>
    indexed.form_of_edits allowed found⟩

/-- A loop creates a square of the name of a small circle. -/
theorem nothing_disappears_of_replaced_circle :
    let circle : Object := .new .circle { size := 7 }
    let session : Session := { new {} with scene := Scene.empty.insert "coin-0" circle }
    let source := "for(i = 0; i < 1; i = i + 1)\x7bobject.create(square, coin-i);\x7d"
    ∃ final, session.Executes (Program.ofText source.toList).commands final ∧
      session.scene.names <+: final.scene.names ∧ final.selection = none ∧
      ∃ after, final.scene.get? "coin-0" = some after ∧
        (circle.SameForm after ∨ ∃ shape, (Object.new shape {}).SameForm after) := by
  intro circle session source
  have finishes : (session.execute 1 (Program.ofText source.toList).commands).isSome = true := by
    decide +kernel
  obtain ⟨final, ran⟩ := Option.isSome_iff_exists.mp finishes
  have reached : session.IsReached :=
    ⟨{}, [.edit (.insert "coin-0" circle)], .cons rfl (.nil session)⟩
  have found : session.scene.get? "coin-0" = some circle := by
    rw [Scene.isIndexed_empty.get?_insert, if_pos rfl]
  obtain ⟨names, -, -, executed⟩ := nothing_disappears reached rfl rfl
    (show (Operation.execute _).Performs session final from ⟨1, ran⟩)
  obtain ⟨selection, -, edits, -, -, forms⟩ := executed _ rfl
  obtain ⟨after, foundAfter, form⟩ := forms "coin-0" circle found
  refine ⟨final, ⟨1, ran⟩, names, selection, after, foundAfter, ?_⟩
  obtain same | ⟨shape, -, created⟩ := form
  · exact .inl same
  · exact .inr ⟨shape, created⟩

/-! ## The selection -/

/-- The selected name is listed. -/
def SelectsListed (session : Session) : Prop :=
  ∀ name, session.selection = some name → name ∈ session.scene.names

theorem Operation.Performs.selectsListed {operation : Operation} {before after : Session}
    (performed : operation.Performs before after) (noClear : operation.isClear = false)
    (indexed : before.scene.IsIndexed) (listed : before.SelectsListed) : after.SelectsListed := by
  intro name selected
  cases isLoad : operation.isLoad with
  | true =>
      cases operation with
      | load source =>
          obtain ⟨-, -, first, -⟩ := exists_edits_of_loads performed
          rw [first, Scene.firstName?_eq_head?] at selected
          exact List.mem_of_head? selected
      | _ => cases isLoad
  | false =>
      have kept := performed.effect.names_prefix indexed isLoad noClear
      obtain same | ⟨chosen, isChosen, present⟩ := performed.effect.selection isLoad
      · exact kept.subset (listed name (same ▸ selected))
      · cases isChosen.symm.trans selected
        obtain contained | member := present
        · exact kept.subset ((indexed.contains_iff name).mp contained)
        · exact kept.subset member

theorem selectsListed_of_performsAll {config : Config} {history : List Operation}
    {session : Session} (performed : PerformsAll history (new config) session)
    (noClear : ∀ operation ∈ history, operation.isClear = false) : session.SelectsListed := by
  have both : session.scene.IsIndexed ∧ session.SelectsListed := by
    refine performed.keeps (fun session => session.scene.IsIndexed ∧ session.SelectsListed) ?_
      ⟨Scene.isIndexed_empty, fun name selected => by cases selected⟩
    intro operation member before after holds performs
    exact ⟨performs.effect.isIndexed holds.1,
      performs.selectsListed (noClear operation member) holds.1 holds.2⟩
  exact both.2

/-- Whatever is done with a session, but for clearing its scene from outside, the selection is
empty or names an object of the scene, so that there is a selected object exactly if there is
a selection. When a script has just been loaded, the selection is the first name, and there
is none exactly if the scene is empty. -/
theorem selection_never_dangles {config : Config} {history : List Operation} {session : Session}
    (performed : PerformsAll history (new config) session)
    (noClear : ∀ operation ∈ history, operation.isClear = false) :
    (session.selection = none ∨ ∃ name, session.selection = some name ∧
      session.scene.contains name = true ∧ name ∈ session.scene.names) ∧
    (session.selected? = none ↔ session.selection = none) ∧
    ∀ source final, session.Loads source final →
      final.selection = final.scene.names.head? ∧
      (final.selection = none ↔ final.scene.toList = []) := by
  have indexed := isIndexed_of_performsAll performed
  have listed := selectsListed_of_performsAll performed noClear
  refine ⟨?_, ?_, ?_⟩
  · cases selected : session.selection with
    | none => exact .inl rfl
    | some name =>
        have member := listed name selected
        exact .inr ⟨name, rfl, (indexed.contains_iff name).mpr member, member⟩
  · cases selected : session.selection with
    | none => simp only [selected?, selected, Option.bind_none]
    | some name =>
        obtain ⟨object, found⟩ := Scene.exists_lookup_of_mem (listed name selected)
        simp only [selected?, selected, Option.bind_some, indexed.get?_eq_lookup, found, reduceCtorEq]
  · intro source final loaded
    obtain ⟨-, -, first, -⟩ := exists_edits_of_loads loaded
    rw [first, Scene.firstName?_eq_head?]
    refine ⟨rfl, ?_⟩
    rw [List.head?_eq_none_iff, Scene.names, List.map_eq_nil_iff]

/-- A circle comes into the scene from outside and is selected; then a frame passes. -/
theorem selection_never_dangles_of_inserted_circle :
    let history : List Operation :=
      [.load "object.create(square, a);", .edit (.insert "b" (.new .circle {})), .select "b",
        .tick { nudges := [.up] }]
    ∃ session, PerformsAll history (new {}) session ∧ session.selection = some "b" ∧
      ¬ session.selected? = none := by
  intro history
  have finishes : ((new {}).load 0 "object.create(square, a);").isSome = true := by
    decide +kernel
  obtain ⟨loaded, ran⟩ := Option.isSome_iff_exists.mp finishes
  have loads : (Operation.load "object.create(square, a);").Performs (new {}) loaded := ⟨0, ran⟩
  have indexed : loaded.scene.IsIndexed := loads.effect.isIndexed Scene.isIndexed_empty
  let drawn : Session := { loaded with scene := loaded.scene.insert "b" (.new .circle {}) }
  have present : drawn.scene.contains "b" = true := by
    rw [(indexed.insert "b" _).contains_iff, indexed.names_insert]
    split <;> simp_all
  have chosen : drawn.select "b" = { drawn with selection := some "b" } := if_pos present
  have performed : PerformsAll history (new {}) ((drawn.select "b").tick { nudges := [.up] }) :=
    .cons loads (.cons rfl (.cons rfl (.cons rfl (.nil _))))
  have selection : ((drawn.select "b").tick { nudges := [.up] }).selection = some "b" := by
    rw [chosen, tick_eq]
    rfl
  obtain ⟨-, resolves, -⟩ := selection_never_dangles performed (by decide)
  refine ⟨_, performed, selection, fun missing => ?_⟩
  cases selection.symm.trans (resolves.mp missing)

end Session

end SceneScript
