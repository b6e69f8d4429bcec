import CsvImport.Bytes
import CsvImport.Chunk
import CsvImport.Command
import CsvImport.Command.Arguments
import CsvImport.Command.Preview
import CsvImport.Config
import CsvImport.Config.Load
import CsvImport.Config.Reader
import CsvImport.Dialect
import CsvImport.Disk
import CsvImport.Document
import CsvImport.Document.Writer
import CsvImport.Failure
import CsvImport.FailureKind
import CsvImport.FailureLog
import CsvImport.FailureLog.Record
import CsvImport.FailureLog.Statistics
import CsvImport.FailureTracker
import CsvImport.Header
import CsvImport.Ingest
import CsvImport.Interpolation
import CsvImport.Job
import CsvImport.Job.Progress
import CsvImport.Job.Schedule
import CsvImport.Job.Summary
import CsvImport.Json.Parser
import CsvImport.Json.Printer
import CsvImport.Json.Reader
import CsvImport.Json.Value
import CsvImport.Main
import CsvImport.Metrics
import CsvImport.Notice
import CsvImport.Notice.Filter
import CsvImport.Output
import CsvImport.Proofs.Aborting
import CsvImport.Proofs.Accounting
import CsvImport.Proofs.Addresses
import CsvImport.Proofs.BatchNames
import CsvImport.Proofs.Batches
import CsvImport.Proofs.ByteDecoding
import CsvImport.Proofs.Calendar
import CsvImport.Proofs.Calls
import CsvImport.Proofs.Calm
import CsvImport.Proofs.Carrying
import CsvImport.Proofs.Characters
import CsvImport.Proofs.ChunkedDecoding
import CsvImport.Proofs.Coarsening
import CsvImport.Proofs.Completing
import CsvImport.Proofs.ConfiguredHeaders
import CsvImport.Proofs.Covering
import CsvImport.Proofs.Destinations
import CsvImport.Proofs.Directories
import CsvImport.Proofs.Documents
import CsvImport.Proofs.EmptySources
import CsvImport.Proofs.Escaping
import CsvImport.Proofs.Extents
import CsvImport.Proofs.FailureLimit
import CsvImport.Proofs.FailureLogging
import CsvImport.Proofs.FailurePlaces
import CsvImport.Proofs.Fates
import CsvImport.Proofs.FieldTexts
import CsvImport.Proofs.FirstFailure
import CsvImport.Proofs.Flights
import CsvImport.Proofs.Gains
import CsvImport.Proofs.Gauge
import CsvImport.Proofs.HeaderModes
import CsvImport.Proofs.HeaderNames
import CsvImport.Proofs.Importing
import CsvImport.Proofs.Ingestion
import CsvImport.Proofs.Interpolating
import CsvImport.Proofs.Interruptions
import CsvImport.Proofs.JsonReading
import CsvImport.Proofs.Keeping
import CsvImport.Proofs.KeyParts
import CsvImport.Proofs.Lines
import CsvImport.Proofs.Loading
import CsvImport.Proofs.Lossless
import CsvImport.Proofs.MemoryStore
import CsvImport.Proofs.Metering
import CsvImport.Proofs.Mirroring
import CsvImport.Proofs.NamedFiles
import CsvImport.Proofs.Objects
import CsvImport.Proofs.Origins
import CsvImport.Proofs.Paths
import CsvImport.Proofs.Places
import CsvImport.Proofs.Planning
import CsvImport.Proofs.Policies
import CsvImport.Proofs.Positions
import CsvImport.Proofs.Previewing
import CsvImport.Proofs.Reading
import CsvImport.Proofs.References
import CsvImport.Proofs.Releasing
import CsvImport.Proofs.RenderedRows
import CsvImport.Proofs.Renderings
import CsvImport.Proofs.Reordering
import CsvImport.Proofs.RoundTrip
import CsvImport.Proofs.Safekeeping
import CsvImport.Proofs.Sequential
import CsvImport.Proofs.SparedFiles
import CsvImport.Proofs.Splitting
import CsvImport.Proofs.Stages
import CsvImport.Proofs.Steps
import CsvImport.Proofs.TextBytes
import CsvImport.Proofs.TimeStamps
import CsvImport.Proofs.Totals
import CsvImport.Proofs.Unquoted
import CsvImport.Proofs.Writing
import CsvImport.Proofs.WrittenRecords
import CsvImport.Record.Decoder
import CsvImport.Record.Delivery
import CsvImport.Record.Field
import CsvImport.ReorderBuffer
import CsvImport.Session
import CsvImport.Sink
import CsvImport.Source
import CsvImport.Storage.Key
import CsvImport.Storage.Location
import CsvImport.Storage.Store
import CsvImport.Table
import CsvImport.Text.Blank
import CsvImport.Text.Hex
import CsvImport.Text.Hidden
import CsvImport.Text.Quoted
import CsvImport.Text.Utf8
import CsvImport.Timestamp
import CsvImport.Yaml.Cursor
import CsvImport.Yaml.Node
import CsvImport.Yaml.Reader
import CsvImport.Yaml.Scalar
import CsvImport.Yaml.Token
