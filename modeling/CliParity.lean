import CliParity.CommandLine.PatchTool
import CliParity.CommandLine.PublishTool
import CliParity.Files.Tree
import CliParity.Main
import CliParity.Proofs.Text.Occurrence
import CliParity.Proofs.Text.Rewriting
import CliParity.Proofs.Patch.Readiness
import CliParity.Proofs.Patch.Run
import CliParity.Proofs.Patch.Compatibility
import CliParity.Proofs.Patch.Settling
import CliParity.Proofs.Patch.Opening
import CliParity.Proofs.Patch.Idempotence
import CliParity.Proofs.Patch.Convergence
import CliParity.Proofs.Patch.Masking
import CliParity.Proofs.OrderedMap
import CliParity.Proofs.Files.Path
import CliParity.Proofs.Files.Tree
import CliParity.Proofs.Registry.Grouping
import CliParity.Proofs.Dispatcher.Names
import CliParity.Proofs.Dispatcher.Scan
import CliParity.Proofs.Dispatcher.Guard
import CliParity.Proofs.Registry.Assembly
import CliParity.Proofs.Json.Spelling
import CliParity.Proofs.Json.Layout
import CliParity.Proofs.Json.Decode
import CliParity.Proofs.Json.Shape
import CliParity.Proofs.Registry.Document
import CliParity.Proofs.Registry.Presentation
import CliParity.Proofs.Preferences.Layout
import CliParity.Proofs.Publication.Outcome
import CliParity.Proofs.Dispatcher.Block
import CliParity.Proofs.Registry.Listing
import CliParity.Proofs.Files.Changes
import CliParity.Proofs.Patch.Target
import CliParity.Proofs.CommandLine.PatchTool
import CliParity.Proofs.Publication.Failure
import CliParity.Proofs.Command.ReplyFormat
import CliParity.Proofs.Registry.Stamp
import CliParity.Proofs.Dispatcher.LineEnding
import CliParity.Proofs.Preferences.LineEnding
import CliParity.Proofs.Registry.LineEnding
import CliParity.Proofs.Patch.References
import CliParity.Proofs.Command.OneScan
import CliParity.Proofs.Registry.Canonical
import CliParity.Proofs.Dispatcher.Growth
import CliParity.Proofs.Text.Blank
import CliParity.Proofs.Dispatcher.Comparison
import CliParity.Proofs.Dispatcher.Interchange
import CliParity.Proofs.Dispatcher.Respacing
import CliParity.Proofs.Dispatcher.SpacingTolerance
import CliParity.Proofs.Dispatcher.Descriptor
import CliParity.Proofs.Text.Trim
import CliParity.Proofs.Dispatcher.CanonicalNames
import CliParity.Proofs.Text.Word
import CliParity.Proofs.Preferences.Struct
import CliParity.Proofs.Preferences.Declaration
import CliParity.Proofs.Preferences.WrittenStruct
import CliParity.Proofs.Text.Replacement
import CliParity.Proofs.Patch.Placement
import CliParity.Proofs.Patch.SwitchingOff
import CliParity.Proofs.Patch.Undoing
import CliParity.Proofs.Preferences.Comment
import CliParity.Proofs.Patch.Preamble
import CliParity.Proofs.Text.InLine
import CliParity.Proofs.Patch.Report
import CliParity.Proofs.Text.InsertedLines
import CliParity.Proofs.Patch.AddedLines
import CliParity.Proofs.Files.Agreement
import CliParity.Proofs.Publication.LocalCopy
import CliParity.Proofs.Text.Pieces
import CliParity.Proofs.Patch.Overwriting
import CliParity.Proofs.Text.Leftmost
import CliParity.Proofs.Dispatcher.Matching
import CliParity.Proofs.Preferences.Location
