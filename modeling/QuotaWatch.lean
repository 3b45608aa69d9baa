import QuotaWatch.Config.Codec
import QuotaWatch.Main
import QuotaWatch.Proofs.Disk.Path
import QuotaWatch.Proofs.Disk.Tree
import QuotaWatch.Proofs.Disk.Walk
import QuotaWatch.Proofs.Disk.Change
import QuotaWatch.Proofs.Ledger.Csv
import QuotaWatch.Proofs.Ledger.Table
import QuotaWatch.Proofs.Ledger.Archive
import QuotaWatch.Proofs.Ledger.File
import QuotaWatch.Proofs.Ledger.Conservation
import QuotaWatch.Proofs.Blob.Search
import QuotaWatch.Proofs.Blob.Varint
import QuotaWatch.Proofs.Blob.Layout
import QuotaWatch.Proofs.Blob.Words
import QuotaWatch.Proofs.Blob.Scan
import QuotaWatch.Proofs.Watch.Tick
import QuotaWatch.Proofs.Watch.Cadence
import QuotaWatch.Proofs.Watch.Accounting
import QuotaWatch.Proofs.Ledger.Torn
import QuotaWatch.Proofs.Toml.Scalar
import QuotaWatch.Proofs.Watch.Designated
import QuotaWatch.Proofs.Toml.Document
import QuotaWatch.Proofs.Toml.Table
import QuotaWatch.Proofs.Config.RoundTrip
import QuotaWatch.Proofs.Watch.Shown
import QuotaWatch.Proofs.Watch.Stopping
import QuotaWatch.Proofs.Disk.Parent
import QuotaWatch.Proofs.Disk.Stops
import QuotaWatch.Proofs.Disk.Making
import QuotaWatch.Proofs.Ledger.Failure
import QuotaWatch.Proofs.Ledger.Rotation
import QuotaWatch.Proofs.Ledger.Summary
import QuotaWatch.Proofs.Text.Grouped
import QuotaWatch.Proofs.Dashboard.Outline
import QuotaWatch.Proofs.Dashboard.Colour
import QuotaWatch.Proofs.Dashboard.Shape
import QuotaWatch.Proofs.Blob.Base64
import QuotaWatch.Proofs.Json.Grammar
import QuotaWatch.Proofs.Json.Tokens
import QuotaWatch.Proofs.Json.Strings
import QuotaWatch.Proofs.Json.Reading
import QuotaWatch.Proofs.Json.Spelling
import QuotaWatch.Proofs.Store.Opening
import QuotaWatch.Proofs.Store.Extraction
import QuotaWatch.Proofs.Blob.Groups
import QuotaWatch.Proofs.Text.Padded
import QuotaWatch.Proofs.Time.Calendar
import QuotaWatch.Proofs.Time.Clock
import QuotaWatch.Proofs.Text.Order
import QuotaWatch.Proofs.Time.Stamp
import QuotaWatch.Proofs.Time.Order
import QuotaWatch.Proofs.Json.Writing
import QuotaWatch.Proofs.Json.Readers
import QuotaWatch.Proofs.Json.RoundTrip
import QuotaWatch.Proofs.Config.Creation
import QuotaWatch.Proofs.Watch.Schedule
import QuotaWatch.Proofs.Command.Status
import QuotaWatch.Proofs.Blob.Canonical
import QuotaWatch.Proofs.Blob.Growth
import QuotaWatch.Proofs.Ledger.Foreign
import QuotaWatch.Proofs.Ledger.Named
import QuotaWatch.Proofs.Config.Once
import QuotaWatch.Proofs.Config.Given
import QuotaWatch.Proofs.Config.Override
