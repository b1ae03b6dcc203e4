import Unwind.Action
import Unwind.Block.Error
import Unwind.Block.Expansion
import Unwind.Block.Lowering
import Unwind.Block.Parse
import Unwind.Block.Span
import Unwind.Clauses
import Unwind.Completion
import Unwind.Config
import Unwind.Event
import Unwind.Failure
import Unwind.Index.Basic
import Unwind.Index.FateTree
import Unwind.Index.Location
import Unwind.Index.Recorder
import Unwind.Index.Report
import Unwind.Machine
import Unwind.Payload
import Unwind.Program.Run
import Unwind.Program.Stmt
import Unwind.Proofs.ActiveRegions
import Unwind.Proofs.BlockGrammar
import Unwind.Proofs.Built
import Unwind.Proofs.CallChains
import Unwind.Proofs.CarriedReturns
import Unwind.Proofs.ChainDispatch
import Unwind.Proofs.ClauseLists
import Unwind.Proofs.ClauseOrder
import Unwind.Proofs.ClauseReach
import Unwind.Proofs.Conservation
import Unwind.Proofs.Custody
import Unwind.Proofs.FirstClause
import Unwind.Proofs.FullExpansion
import Unwind.Proofs.History
import Unwind.Proofs.Identity
import Unwind.Proofs.IndependentStatements
import Unwind.Proofs.KeptText
import Unwind.Proofs.Layers
import Unwind.Proofs.LexicalExpansion
import Unwind.Proofs.Lifetimes
import Unwind.Proofs.LoweredCalls
import Unwind.Proofs.LoweringSteps
import Unwind.Proofs.Marks
import Unwind.Proofs.MaximalChains
import Unwind.Proofs.Outline
import Unwind.Proofs.Portions
import Unwind.Proofs.Positions
import Unwind.Proofs.ProgramRoutines
import Unwind.Proofs.Propagation
import Unwind.Proofs.Recognition
import Unwind.Proofs.RecorderState
import Unwind.Proofs.Recording
import Unwind.Proofs.RefusedOperations
import Unwind.Proofs.RegionCourse
import Unwind.Proofs.RegionNumbers
import Unwind.Proofs.RegionTree
import Unwind.Proofs.ReplacedBlocks
import Unwind.Proofs.RethrowModes
import Unwind.Proofs.ReturnedExpressions
import Unwind.Proofs.Routine
import Unwind.Proofs.Scopes
import Unwind.Proofs.StackLemmas
import Unwind.Proofs.StartupPhases
import Unwind.Proofs.TreeShape
import Unwind.Proofs.Truncation
import Unwind.Sample
import Unwind.Stack
import Unwind.Startup
import Unwind.Text.FileName
import Unwind.Text.IdentifierPart
import Unwind.Text.IdentifierStart
import Unwind.Text.Invisible
import Unwind.Text.JoiningMark
import Unwind.Text.Lowercase
import Unwind.Text.Quoted
import Unwind.Token.Basic
import Unwind.Token.Lexeme
import Unwind.Token.Literal
