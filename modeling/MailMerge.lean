import MailMerge.Access.Authorize
import MailMerge.Access.Gate
import MailMerge.Access.State
import MailMerge.Archive.Basic
import MailMerge.Archive.Bits
import MailMerge.Archive.Checksum
import MailMerge.Archive.CodeLengths
import MailMerge.Archive.Deflate
import MailMerge.Archive.Fault
import MailMerge.Archive.Huffman
import MailMerge.Archive.Inflate
import MailMerge.Archive.Name
import MailMerge.Archive.Reading
import MailMerge.Archive.Repeat
import MailMerge.Archive.Word
import MailMerge.Archive.Writing
import MailMerge.Assembly
import MailMerge.Calendar.Date
import MailMerge.Calendar.Instant
import MailMerge.Calendar.Reading
import MailMerge.Choice
import MailMerge.CommandLine.Invocation
import MailMerge.CommandLine.Parameter
import MailMerge.CommandLine.Reader
import MailMerge.CommandLine.Report
import MailMerge.CommandLine.Run
import MailMerge.Configuration.Basic
import MailMerge.Configuration.Printer
import MailMerge.Configuration.Reader
import MailMerge.Configuration.Storage
import MailMerge.Digest
import MailMerge.DocumentKind
import MailMerge.Error
import MailMerge.Field.Format
import MailMerge.Field.Record
import MailMerge.Field.Value
import MailMerge.FileName
import MailMerge.Generation.Document
import MailMerge.Generation.Merge
import MailMerge.Generation.Progress
import MailMerge.Generation.Run
import MailMerge.Host.Action
import MailMerge.Host.Operation
import MailMerge.Host.World
import MailMerge.Http
import MailMerge.Inspection
import MailMerge.Json.Basic
import MailMerge.Json.Grammar
import MailMerge.Json.Printer
import MailMerge.Json.Reader
import MailMerge.Main
import MailMerge.Markup.Escape
import MailMerge.Markup.Event
import MailMerge.Markup.Reference
import MailMerge.Markup.Tag
import MailMerge.Markup.WellFormed
import MailMerge.Number.Binary64
import MailMerge.Number.Decimal
import MailMerge.Number.Shortest
import MailMerge.Output
import MailMerge.Package
import MailMerge.Placeholder.Convention
import MailMerge.Placeholder.Repair
import MailMerge.Placeholder.Substitute
import MailMerge.Placeholder.Table
import MailMerge.Proofs.LocatedRegion
import MailMerge.Proofs.StoredContent
import MailMerge.Region.Body
import MailMerge.Region.Bookmark
import MailMerge.Region.Comment
import MailMerge.Region.Location
import MailMerge.Region.Marker
import MailMerge.Replication
import MailMerge.Storage.Fault
import MailMerge.Storage.FileSystem
import MailMerge.Storage.Path
import MailMerge.Template
import MailMerge.TemplateSource
import MailMerge.Text.Basic
import MailMerge.Text.Blank
import MailMerge.Text.Letter
import MailMerge.Text.Lowercase
import MailMerge.Text.Scan
import MailMerge.Text.Utf8
import MailMerge.Toml.Basic
import MailMerge.Toml.Printer
import MailMerge.Toml.Reader
import MailMerge.Toml.Scalar
import MailMerge.Toml.Token
import MailMerge.Url.Basic
import MailMerge.Url.Escape
import MailMerge.Url.Fault
import MailMerge.Url.Host
import MailMerge.Url.Punycode
import MailMerge.Url.Reading
import MailMerge.Proofs.Merging
import MailMerge.Proofs.References
import MailMerge.Proofs.Attributes
import MailMerge.Proofs.SoundMarkup
import MailMerge.Proofs.CheckedMarkup
import MailMerge.Proofs.SoundTemplate
import MailMerge.Proofs.TokenRepair
import MailMerge.Proofs.RenderedValue
import MailMerge.Proofs.TokenMatch
import MailMerge.Proofs.FilledTemplate
import MailMerge.Proofs.DataSafety
import MailMerge.Proofs.CharacterData
import MailMerge.Proofs.RunSplitting
import MailMerge.Proofs.Digits
import MailMerge.Proofs.WrittenInstants
import MailMerge.Proofs.WrittenGate
import MailMerge.Proofs.StoredGate
import MailMerge.Proofs.GateAttempt
import MailMerge.Proofs.Guessing
import MailMerge.Proofs.UndecidedCalls
import MailMerge.Proofs.BracketedText
import MailMerge.Proofs.CutRegions
import MailMerge.Proofs.Relocation
import MailMerge.Proofs.SeparateDocuments
import MailMerge.Proofs.Nesting
import MailMerge.Proofs.NestedRepair
import MailMerge.Proofs.FileChanges
import MailMerge.Proofs.FaultyHost
import MailMerge.Proofs.FailedWriting
import MailMerge.Proofs.ListedPlaceholders
import MailMerge.Proofs.TableOrder
import MailMerge.Proofs.AcceptedNames
import MailMerge.Proofs.AbsentMarkers
import MailMerge.Proofs.ContentTree
import MailMerge.Proofs.BodySection
import MailMerge.Proofs.MarkerPairs
import MailMerge.Proofs.EncodedText
import MailMerge.Proofs.WrittenArchive
import MailMerge.Proofs.Repackaging
import MailMerge.Proofs.CharacterReferences
import MailMerge.Proofs.CheckedDocument
import MailMerge.Proofs.KeptByMerging
import MailMerge.Proofs.ValidatedDocument
import MailMerge.Proofs.PerformedSteps
import MailMerge.Proofs.GuardedGeneration
import MailMerge.Proofs.BareNames
import MailMerge.Proofs.KeptTags
import MailMerge.Proofs.TokenRows
import MailMerge.Proofs.ValuePrecedence
import MailMerge.Proofs.ColumnOrder
import MailMerge.Proofs.FirstMarkers
import MailMerge.Proofs.StrippedMarkers
import MailMerge.Proofs.InsertedTags
import MailMerge.Proofs.OpenElements
import MailMerge.Proofs.BreakPlaces
import MailMerge.Proofs.MarkupTokens
import MailMerge.Proofs.RepairRun
import MailMerge.Proofs.RepairOffsets
import MailMerge.Proofs.PathNames
import MailMerge.Proofs.DocumentNames
import MailMerge.Proofs.CompletedWriting
import MailMerge.Proofs.RenderedLines
import MailMerge.Proofs.CalendarDays
import MailMerge.Proofs.WrittenDates
import MailMerge.Proofs.InsertionOrder
import MailMerge.Proofs.TableViews
import MailMerge.Proofs.KeptGate
import MailMerge.Proofs.ShownConfiguration
import MailMerge.Proofs.WholeNumbers
import MailMerge.Proofs.AttributeSearch
