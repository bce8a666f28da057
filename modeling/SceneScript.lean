import SceneScript.Main
import SceneScript.Window.Gesture
import SceneScript.Proofs.Expr.Acceptance
import SceneScript.Proofs.Script.Concatenation
import SceneScript.Proofs.Script.Failure
import SceneScript.Proofs.Script.RoundTrip
import SceneScript.Proofs.Script.Limits
import SceneScript.Proofs.Script.Piece
import SceneScript.Proofs.Offset.Program
import SceneScript.Proofs.Script.Parser
import SceneScript.Proofs.Diagnostics
import SceneScript.Proofs.Scene.Index
import SceneScript.Proofs.Scene.Encounters
import SceneScript.Proofs.Script.Edits
import SceneScript.Proofs.Session.Persistence
import SceneScript.Proofs.Session.Frame
import SceneScript.Proofs.Session.Reload
import SceneScript.Proofs.Expr.Success
import SceneScript.Proofs.Scene.Partners
import SceneScript.Proofs.Window.Replay
import SceneScript.Proofs.Decimal.Characters
import SceneScript.Proofs.Expr.Names
import SceneScript.Proofs.Script.Invariant
import SceneScript.Proofs.Script.Names
import SceneScript.Proofs.Script.Lines
import SceneScript.Proofs.Report
import SceneScript.Proofs.Script.Tiling
import SceneScript.Proofs.Decimal.Numeral
import SceneScript.Proofs.Expr.LongestMatch
import SceneScript.Proofs.Expr.Columns
import SceneScript.Proofs.Script.LoopExit
import SceneScript.Proofs.Script.Assignment
import SceneScript.Proofs.Store.Words
import SceneScript.Proofs.Session.Resolved
import SceneScript.Proofs.Script.Bodies
import SceneScript.Proofs.Text.Hex
import SceneScript.Proofs.Palette
import SceneScript.Proofs.Offset.FirstBalance
import SceneScript.Proofs.Script.HeaderScan
