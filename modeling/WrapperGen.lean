import WrapperGen.Command.Build
import WrapperGen.Demo.Services
import WrapperGen.Main
import WrapperGen.Output.Recording
import WrapperGen.Proofs.Rounds.Trail
import WrapperGen.Proofs.Rounds.Lifecycle
import WrapperGen.Proofs.Files.Paths
import WrapperGen.Proofs.Files.Writes
import WrapperGen.Proofs.Output.UnitPaths
import WrapperGen.Proofs.Output.Kept
import WrapperGen.Proofs.Calls.Runs
import WrapperGen.Proofs.Calls.Brackets
import WrapperGen.Proofs.Calls.Sessions
import WrapperGen.Proofs.Calls.Slots
import WrapperGen.Proofs.Calls.Wrappers
import WrapperGen.Proofs.Calls.Moves
import WrapperGen.Proofs.Calls.Outcomes
import WrapperGen.Proofs.Calls.Threads
import WrapperGen.Proofs.Calls.Once
import WrapperGen.Proofs.Rounds.Fixpoint
import WrapperGen.Proofs.Layout.Phrases
import WrapperGen.Proofs.Layout.Units
import WrapperGen.Proofs.Rounds.Panics
import WrapperGen.Proofs.Rounds.Places
import WrapperGen.Proofs.Rounds.Skipped
import WrapperGen.Proofs.Rounds.Prediction
import WrapperGen.Proofs.Traits.Objects
import WrapperGen.Proofs.Traits.Callable
import WrapperGen.Proofs.Types.WrapperPaths
import WrapperGen.Proofs.Types.ImportOrder
import WrapperGen.Proofs.Types.Payloads
import WrapperGen.Proofs.Rounds.FileOrder
import WrapperGen.Proofs.Types.Growth
import WrapperGen.Proofs.Output.Rebuild
import WrapperGen.Proofs.Rounds.Accounts
import WrapperGen.Proofs.Output.Beneath
import WrapperGen.Proofs.Output.Manifest
import WrapperGen.Proofs.Traits.Descriptions
import WrapperGen.Proofs.Types.Missing
import WrapperGen.Proofs.Types.RelativePaths
import WrapperGen.Proofs.Types.Respelling
import WrapperGen.Proofs.Units.Structure
import WrapperGen.Proofs.Traits.ParameterNames
import WrapperGen.Proofs.Unplaced.Readers
import WrapperGen.Proofs.Unplaced.Types
import WrapperGen.Proofs.Unplaced.Expressions
import WrapperGen.Proofs.Unplaced.Items
import WrapperGen.Proofs.Unplaced.Texts
import WrapperGen.Proofs.Traits.Arguments
import WrapperGen.Proofs.Units.Header
import WrapperGen.Proofs.Units.Scopes
import WrapperGen.Proofs.Settings.Checked
import WrapperGen.Proofs.Files.Excludes
import WrapperGen.Proofs.Output.InMemory
import WrapperGen.Proofs.Universe.Latest
import WrapperGen.Proofs.Universe.Scanned
import WrapperGen.Proofs.Universe.Loading
import WrapperGen.Proofs.Rendered.Lossless
import WrapperGen.Proofs.Files.Ancestors
import WrapperGen.Proofs.Calls.Clients
