import ReactiveSheet.Main
import ReactiveSheet.FileTree
import ReactiveSheet.Proofs.AcyclicRest
import ReactiveSheet.Proofs.Arithmetic
import ReactiveSheet.Proofs.SheetUpdate
import ReactiveSheet.Proofs.Journal
import ReactiveSheet.Proofs.History
import ReactiveSheet.Proofs.Reach
import ReactiveSheet.Proofs.Reporting
import ReactiveSheet.Proofs.Resumption
import ReactiveSheet.Proofs.ZeroSign
import ReactiveSheet.Proofs.NotANumber
import ReactiveSheet.Proofs.Parts
import ReactiveSheet.Proofs.DefinitionsLayout
import ReactiveSheet.Proofs.SessionOutput
import ReactiveSheet.Proofs.Showing
import ReactiveSheet.Proofs.Tokens
import ReactiveSheet.Proofs.ReferencePlaces
import ReactiveSheet.Proofs.ShownReferences
import ReactiveSheet.Proofs.TypedBack
import ReactiveSheet.Proofs.TypedCommands
import ReactiveSheet.Proofs.SnapshotText
import ReactiveSheet.Proofs.AcceptedLines
