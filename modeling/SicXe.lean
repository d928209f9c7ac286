import SicXe.Main
import SicXe.Service.Assemble
import SicXe.Service.Page
import SicXe.Proofs.LayoutStep
import SicXe.Proofs.LayoutRun
import SicXe.Proofs.AssemblyRun
import SicXe.Proofs.Recovery
import SicXe.Proofs.Outcomes
import SicXe.Proofs.LayoutSize
import SicXe.Proofs.Loading
import SicXe.Proofs.ObjectFormat
import SicXe.Proofs.LoadingExact
import SicXe.Proofs.CheckedAccess
import SicXe.Proofs.LoadingSafety
import SicXe.Proofs.RoundTrip
import SicXe.Proofs.Findings
import SicXe.Proofs.FaultReports
import SicXe.Proofs.LabelReferences
import SicXe.Proofs.Tokens
import SicXe.Proofs.Restart
import SicXe.Proofs.Relocation
import SicXe.Proofs.UpwardCompatibility
import SicXe.Proofs.SessionRuns
import SicXe.Proofs.FileWrites
import SicXe.Proofs.FrontEnds
import SicXe.Proofs.JsonFields
import SicXe.Proofs.EditorRequests
import SicXe.Proofs.MessageFields
import SicXe.Proofs.Protocol
import SicXe.Proofs.HoverTexts
import SicXe.Proofs.EditorDocuments
import SicXe.Proofs.EditorReplies
import SicXe.Proofs.SymbolFiles
import SicXe.Proofs.TextChunks
import SicXe.Proofs.FieldPlaces
import SicXe.Proofs.FaultColumns
import SicXe.Proofs.DataOperands
import SicXe.Proofs.Displacements
import SicXe.Proofs.DirectAddresses
import SicXe.Proofs.InstructionStreams
import SicXe.Proofs.ListingLines
import SicXe.Proofs.LineEndings
import SicXe.Proofs.DiagnosticSpans
import SicXe.Proofs.MemoryDumps
import SicXe.Proofs.LiteralForms
import SicXe.Proofs.OutputPaths
import SicXe.Proofs.SourceSafety
import SicXe.Proofs.SortedSymbols
import SicXe.Proofs.PointedWords
import SicXe.Proofs.HexadecimalConstants
import SicXe.Proofs.BitFields
