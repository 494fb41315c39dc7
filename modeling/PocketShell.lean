import PocketShell.Arguments
import PocketShell.Builtin
import PocketShell.Builtin.Action
import PocketShell.Change
import PocketShell.Clause
import PocketShell.Command
import PocketShell.Complaint
import PocketShell.Completer
import PocketShell.Environment
import PocketShell.Execution
import PocketShell.Fault
import PocketShell.FileTree
import PocketShell.FileTree.Entry
import PocketShell.FileTree.View
import PocketShell.FileTree.Walk
import PocketShell.Launch
import PocketShell.Line
import PocketShell.Line.Evaluation
import PocketShell.Machine
import PocketShell.Machine.Canonical
import PocketShell.Machine.Entering
import PocketShell.Main
import PocketShell.Numeral
import PocketShell.Path
import PocketShell.Path.Component
import PocketShell.Path.Home
import PocketShell.Proofs.Grammar
import PocketShell.Proofs.Requoting
import PocketShell.Quotation
import PocketShell.Quoting
import PocketShell.ReadLoop
import PocketShell.Redirection
import PocketShell.Remark
import PocketShell.SearchPath
import PocketShell.Session
import PocketShell.Snapshot
import PocketShell.Text
import PocketShell.Text.Blank
import PocketShell.Text.Digit
import PocketShell.Text.Literal
import PocketShell.Text.Printable
import PocketShell.Transcript
import PocketShell.Word
import PocketShell.Proofs.Faults
import PocketShell.Proofs.LoopEnding
import PocketShell.Proofs.Resolution
import PocketShell.Proofs.Mazes
import PocketShell.Proofs.DirectPaths
import PocketShell.Proofs.Clauses
import PocketShell.Proofs.RequotedCommands
import PocketShell.Proofs.WalkRules
import PocketShell.Proofs.Writing
import PocketShell.Proofs.Effects
import PocketShell.Proofs.LoopHistory
import PocketShell.Proofs.OpenWays
import PocketShell.Proofs.CanonicalPaths
import PocketShell.Proofs.EnteringDirectories
import PocketShell.Proofs.VerbatimWords
import PocketShell.Proofs.ShownBefore
import PocketShell.Proofs.AcceptedArguments
import PocketShell.Proofs.SingleLine
import PocketShell.Proofs.Diagnostics
import PocketShell.Proofs.RedirectedRuns
import PocketShell.Proofs.CommandsOfWords
import PocketShell.Proofs.ProgramStages
import PocketShell.Proofs.NulFreePaths
import PocketShell.Proofs.LineEndings
import PocketShell.Proofs.WorkingDirectory
import PocketShell.Proofs.OfferedNames
import PocketShell.Proofs.FailingWalks
import PocketShell.Proofs.ReportedReasons
import PocketShell.Proofs.AbsoluteTargets
import PocketShell.Proofs.AskedNames
import PocketShell.Proofs.CutRules
import PocketShell.Proofs.OpenQuotations
import PocketShell.Proofs.ComposedLines
import PocketShell.Proofs.KeptCharacters
import PocketShell.Proofs.ComposedSearchPaths
import PocketShell.Proofs.Numerals
import PocketShell.Proofs.LeavingStatus
import PocketShell.Proofs.Enumerations
