import AstraIndexator.Foundation.Interleaving
import AstraIndexator.Persistence.DeliveryHistory
import AstraIndexator.Application.LeaseSafety
import AstraIndexator.Application.AppendReplay
import AstraIndexator.Application.DeliveryRecovery
import AstraIndexator.Application.SessionIsolation
import AstraIndexator.Runtime.JobIsolation
import AstraIndexator.PreparedArtifacts.Service
import AstraIndexator.PreparedArtifacts.ManifestRoundTrip
import AstraIndexator.PreparedArtifacts.Publishers
import AstraIndexator.AstraVector.BatchPlan
import AstraIndexator.Normalization.CanonicalText
import AstraIndexator.Ocr.Reuse
import AstraIndexator.Parser.Html
import AstraIndexator.Splitter.Model
import AstraIndexator.Splitter.Sentence
import AstraIndexator.Splitter.Grouping
import AstraIndexator.Splitter.Identity
import AstraIndexator.Splitter.Content
import AstraIndexator.Parser.Markdown
import AstraIndexator.Parser.Docx
import AstraIndexator.Splitter.Hierarchy
import AstraIndexator.Foundation.Runs
import AstraIndexator.Application.FinalizeLaw
import AstraIndexator.Foundation.Resending
import AstraIndexator.Application.AbortReconciliation
import AstraIndexator.Application.AbortLaw
import AstraIndexator.Application.TerminalStatus
import AstraIndexator.Application.PreparedArtifactDelivery
import AstraIndexator.Foundation.Raises
import AstraIndexator.Parser.Pdf
import AstraIndexator.Parser.ReadingOrder
import AstraIndexator.Parser.Columns
import AstraIndexator.Foundation.Traverse
import AstraIndexator.Persistence.CodeOnlyMigration
import AstraIndexator.Application.DeliveryLineage
import AstraIndexator.Application.LeaseRenewal
import AstraIndexator.Acquisition.Promotion
import AstraIndexator.Acquisition.Workspace
import AstraIndexator.Foundation.JsonDefault
import AstraIndexator.Parser.Xlsx
import AstraIndexator.PreparedArtifacts.WorkbookArtifact
import AstraIndexator.Parser.Extraction
import AstraIndexator.Parser.Epub
import AstraIndexator.Application.PreparedArtifactBlocks
import AstraIndexator.Foundation.Loop
import AstraIndexator.AstraVector.BlockTree
import AstraIndexator.AstraVector.BatchEncoding
import AstraIndexator.Foundation.Consolidation
import AstraIndexator.Splitter.SmallGroups
import AstraIndexator.Splitter.ProtectedTokens
import AstraIndexator.Foundation.Pattern
import AstraIndexator.Normalization.Dehyphenation
import AstraIndexator.Splitter.Tables
import AstraIndexator.Foundation.Buffering
import AstraIndexator.Splitter.Placement
import AstraIndexator.Splitter.TableProvenance
import AstraIndexator.Splitter.Limits
import AstraIndexator.Splitter.CodeFidelity
import AstraIndexator.Splitter.ListIntroductions
import AstraIndexator.Foundation.PythonJson
import AstraIndexator.PreparedArtifacts.LoadedManifest
import AstraIndexator.Foundation.JsonEncodable
import AstraIndexator.PreparedArtifacts.ManifestErrors
import AstraIndexator.Splitter.HeadingContext
import AstraIndexator.Splitter.HardGuards
import AstraIndexator.Application.PreparedArtifactReplay
import AstraIndexator.Application.DurablePreparedResume
import AstraIndexator.Foundation.Spans
import AstraIndexator.Verification.Linguistic
import AstraIndexator.Parser.XlsxColumns
import AstraIndexator.Parser.MarkdownLines
import AstraIndexator.Parser.DocxImages
import AstraIndexator.Ocr.Reconciliation
import AstraIndexator.Foundation.Metering
import AstraIndexator.Ocr.Budgets
import AstraIndexator.PreparedArtifacts.WorkingStore
import AstraIndexator.PreparedArtifacts.Assembler
import AstraIndexator.Application.FragmentBlocks
import AstraIndexator.Application.PreparedPipeline
import AstraIndexator.Application.InboxHistory
import AstraIndexator.Foundation.Limited
import AstraIndexator.Parser.Drafts
import AstraIndexator.Parser.PlainText
import AstraIndexator.Parser.Csv
import AstraIndexator.Parser.PdfDocument
import AstraIndexator.Parser.OdtDocument
import AstraIndexator.Parser.Pptx
import AstraIndexator.Parser.Service
