import SceneScript.Proofs.Script.Account
import SceneScript.Proofs.Script.Piece

/-!
# Bodies in normal form

The body of a loop is brought to normal form once more when it is read, and so is every body
inside of it. It has neither line ends nor comments, because it is a piece of the normal form
of the script, and so each time it is only trimmed.
-/

set_option autoImplicit false

namespace SceneScript.Script

open SceneScript.Text

theorem IsPlain.of_infix {piece text : List Char} (plain : IsPlain text)
    (within : piece <:+: text) : IsPlain piece where
  noLineFeed found := plain.noLineFeed (within.subset found)
  noComment found := plain.noComment (found.trans within)

theorem IsPlain.normalize_within {text : List Char} (plain : IsPlain text) :
    normalize text <:+: text := by
  rw [plain.normalize_eq_trim]
  exact trim_within text

namespace Block

theorem within_of_mem_bodies {block body : Block} (member : body ∈ block.bodies) :
    body.code <:+: normalize block.code := by
  obtain ⟨text, among, found⟩ := List.mem_filterMap.mp member
  unfold body? at found
  split at found
  · obtain ⟨loop, taken, rfl⟩ := Option.map_eq_some_iff.mp found
    obtain ⟨front, whole⟩ := exists_body_of_loopText? taken
    have inStatement : loop.body <:+: trim text := by
      refine ⟨front ++ ['{'], ['}'], ?_⟩
      rw [whole]
      simp
    exact inStatement.trans ((trim_within text).trans (within_of_mem_statements among))
  · cases found

/-- Whatever stands in loops of a text without line ends and comments is a piece of it. -/
theorem within_of_mem_blocksFrom {room : Nat} {code : List Char} (plain : IsPlain code)
    {block : Block} (member : block ∈ blocksFrom room code) : block.code <:+: code := by
  induction room generalizing code with
  | zero =>
      cases List.mem_singleton.mp member
      exact List.infix_refl _
  | succ room ih =>
      obtain rfl | deeper := List.mem_cons.mp member
      · exact List.infix_refl _
      · obtain ⟨body, inBodies, inside⟩ := List.mem_flatMap.mp deeper
        have inCode : body.code <:+: code :=
          (within_of_mem_bodies inBodies).trans plain.normalize_within
        exact (ih (plain.of_infix inCode) inside).trans inCode

theorem within_of_mem_blocks {source : List Char} {body : Block}
    (member : body ∈ (Program.blocks source).tail) : body.code <:+: normalize source := by
  obtain ⟨outer, inBodies, inside⟩ := List.mem_flatMap.mp
    (show body ∈ (Block.bodies ⟨maxLoopNesting, source⟩).flatMap _ from member)
  have inSource : outer.code <:+: normalize source := within_of_mem_bodies inBodies
  exact (within_of_mem_blocksFrom ((isNormal_normalize source).plain.of_infix inSource)
    inside).trans inSource

end Block

/-- Bringing a piece of a normal form to normal form only trims it, wherever the piece is cut
out. In particular a normal form stays as it is; it has neither line ends nor comments; and
the body of every loop, however deep it stands, is such a piece. -/
theorem normalize_of_piece (source : List Char) :
    (∀ piece, piece <:+: normalize source → normalize piece = trim piece) ∧
    normalize (normalize source) = normalize source ∧
    '\n' ∉ normalize source ∧ ¬ commentMark <:+: normalize source ∧
    ∀ body ∈ (Program.blocks source).tail,
      body.code <:+: normalize source ∧ normalize body.code = trim body.code := by
  have normal := isNormal_normalize source
  have trims : ∀ piece, piece <:+: normalize source → normalize piece = trim piece :=
    fun piece within => (normal.plain.of_infix within).normalize_eq_trim
  refine ⟨trims, normal.normalize_eq, normal.plain.noLineFeed, normal.plain.noComment, ?_⟩
  intro body member
  have within := Block.within_of_mem_blocks member
  exact ⟨within, trims body.code within⟩

/-- Two slashes that stand on two lines, and blanks of both kinds around the body. -/
theorem normalize_of_piece_of_divided_slashes :
    let source := "for(i = 0; i < 1; i = i + 1)\x7b // once\r\n x = 4 /\n/ 2;\x0b\x7d".toList
    let piece := " x = 4 / / 2;\x0b".toList
    (⟨63, piece⟩ : Block) ∈ (Program.blocks source).tail ∧ piece <:+: normalize source ∧
      normalize piece = "x = 4 / / 2;".toList := by
  intro source piece
  have isBody : (⟨63, piece⟩ : Block) ∈ (Program.blocks source).tail := by decide +kernel
  obtain ⟨trims, -, -, -, bodies⟩ := normalize_of_piece source
  have within := (bodies _ isBody).1
  have trimmed : trim piece = "x = 4 / / 2;".toList := by decide
  exact ⟨isBody, within, (trims piece within).trans trimmed⟩

end SceneScript.Script
