import RecordService.Main
import RecordService.Proofs.Commands
import RecordService.Proofs.Isolation
import RecordService.Proofs.LogicalQuery
import RecordService.Proofs.RecordShape
import RecordService.Proofs.Events
import RecordService.Proofs.Histories
import RecordService.Proofs.Documents
import RecordService.Proofs.Routing
import RecordService.Proofs.Templates
import RecordService.Proofs.Clauses
import RecordService.Proofs.NamedQueries
import RecordService.Proofs.MirroredPatches
import RecordService.Proofs.RoundTrips
import RecordService.Proofs.Separation
import RecordService.Proofs.Serving
import RecordService.Proofs.Creation
import RecordService.Proofs.ReadBack
import RecordService.Proofs.Selection
import RecordService.Proofs.Leases
import RecordService.Proofs.Paging
import RecordService.Proofs.Listed
import RecordService.Proofs.Grammar
import RecordService.Proofs.Counting
import RecordService.Proofs.HttpCalls
import RecordService.Proofs.Patterns
import RecordService.Proofs.Parts
import RecordService.Proofs.Increments
import RecordService.Proofs.OperatorLaws
import RecordService.Proofs.NormalForms
import RecordService.Proofs.Ranges
import RecordService.Proofs.AnyCase
import RecordService.Proofs.Refusals
import RecordService.Proofs.SortTexts
import RecordService.Proofs.TokenCuts
import RecordService.Proofs.DirectoryRuns
import RecordService.Proofs.PointerWrites
import RecordService.Proofs.Paths
import RecordService.Proofs.Removals
