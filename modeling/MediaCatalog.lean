import MediaCatalog.Act
import MediaCatalog.Blob.Persist
import MediaCatalog.Blob.Store
import MediaCatalog.Calendar
import MediaCatalog.Check.Basic
import MediaCatalog.Check.Records
import MediaCatalog.Collaborators
import MediaCatalog.Command.Options
import MediaCatalog.Command.Prepare
import MediaCatalog.Command.Query
import MediaCatalog.Command.Transcript
import MediaCatalog.Completion
import MediaCatalog.Configuration
import MediaCatalog.Delivery
import MediaCatalog.Edit.Picture
import MediaCatalog.Edit.Request
import MediaCatalog.Edit.Rotation
import MediaCatalog.Edit.Transformation
import MediaCatalog.Failure
import MediaCatalog.FileSystem.Basic
import MediaCatalog.FileSystem.Change
import MediaCatalog.FileSystem.Resolve
import MediaCatalog.Folder.Listing
import MediaCatalog.Folder.Scan
import MediaCatalog.Home
import MediaCatalog.Image.Bmp
import MediaCatalog.Image.Bytes
import MediaCatalog.Image.Checksum
import MediaCatalog.Image.Exif
import MediaCatalog.Image.Gif
import MediaCatalog.Image.Imaging
import MediaCatalog.Image.Inflate
import MediaCatalog.Image.Jpeg
import MediaCatalog.Image.Open
import MediaCatalog.Image.Picture
import MediaCatalog.Image.Png
import MediaCatalog.Image.Pnm
import MediaCatalog.Image.Raster
import MediaCatalog.Index.Cell
import MediaCatalog.Index.Database
import MediaCatalog.Index.Script
import MediaCatalog.Index.Storage
import MediaCatalog.Index.Table
import MediaCatalog.Item
import MediaCatalog.Item.Listing
import MediaCatalog.Item.Loose
import MediaCatalog.Json
import MediaCatalog.Json.Conversion
import MediaCatalog.Json.Pairs
import MediaCatalog.Json.Reader
import MediaCatalog.Json.Records
import MediaCatalog.Json.Writer
import MediaCatalog.Locator
import MediaCatalog.Log.Journal
import MediaCatalog.Log.Layout
import MediaCatalog.Log.Record
import MediaCatalog.Log.Setup
import MediaCatalog.Log.Sink
import MediaCatalog.Log.Template
import MediaCatalog.Log.Trace
import MediaCatalog.Main
import MediaCatalog.Metadata.Reading
import MediaCatalog.Metadata.Reply
import MediaCatalog.Metadata.Tags
import MediaCatalog.Mime
import MediaCatalog.Number.Binary64
import MediaCatalog.Number.Digits
import MediaCatalog.Number.Reader
import MediaCatalog.Path
import MediaCatalog.Permission
import MediaCatalog.Preview.Cache
import MediaCatalog.Preview.Digest
import MediaCatalog.Proofs.Act
import MediaCatalog.Proofs.Blob.Naming
import MediaCatalog.Proofs.Blob.Reading
import MediaCatalog.Proofs.Blob.Storing
import MediaCatalog.Proofs.Completion.Batch
import MediaCatalog.Proofs.Completion.Calls
import MediaCatalog.Proofs.Completion.Confinement
import MediaCatalog.Proofs.Completion.Files
import MediaCatalog.Proofs.Completion.Idempotence
import MediaCatalog.Proofs.Completion.Laziness
import MediaCatalog.Proofs.Completion.Memory
import MediaCatalog.Proofs.Completion.Record
import MediaCatalog.Proofs.Edit.Closing
import MediaCatalog.Proofs.Edit.Turning
import MediaCatalog.Proofs.Effect
import MediaCatalog.Proofs.Fate
import MediaCatalog.Proofs.FileSystem.Alike
import MediaCatalog.Proofs.FileSystem.Change
import MediaCatalog.Proofs.FileSystem.Dangling
import MediaCatalog.Proofs.FileSystem.Descent
import MediaCatalog.Proofs.FileSystem.Directory
import MediaCatalog.Proofs.FileSystem.Entry
import MediaCatalog.Proofs.FileSystem.Faults
import MediaCatalog.Proofs.FileSystem.Growth
import MediaCatalog.Proofs.FileSystem.Inside
import MediaCatalog.Proofs.FileSystem.Reach
import MediaCatalog.Proofs.FileSystem.Resolve
import MediaCatalog.Proofs.Folder.Camera
import MediaCatalog.Proofs.Folder.Counts
import MediaCatalog.Proofs.Folder.Cover
import MediaCatalog.Proofs.Folder.Leading
import MediaCatalog.Proofs.Folder.Listing
import MediaCatalog.Proofs.Folder.Merge
import MediaCatalog.Proofs.Folder.Relabel
import MediaCatalog.Proofs.Folder.Tally
import MediaCatalog.Proofs.Folder.Union
import MediaCatalog.Proofs.Image.Opening
import MediaCatalog.Proofs.Index.Access
import MediaCatalog.Proofs.Index.Order
import MediaCatalog.Proofs.Index.Reading
import MediaCatalog.Proofs.Index.Selection
import MediaCatalog.Proofs.Index.Spoiled
import MediaCatalog.Proofs.Item.Listing
import MediaCatalog.Proofs.Item.Views
import MediaCatalog.Proofs.Json.Pairs
import MediaCatalog.Proofs.Locator
import MediaCatalog.Proofs.Metadata.Reading
import MediaCatalog.Proofs.Metadata.Tags
import MediaCatalog.Proofs.Number.Binary64
import MediaCatalog.Proofs.Path
import MediaCatalog.Proofs.Path.Prefix
import MediaCatalog.Proofs.Preview.Coherence
import MediaCatalog.Proofs.Preview.History
import MediaCatalog.Proofs.Preview.Keeping
import MediaCatalog.Proofs.Preview.Key
import MediaCatalog.Proofs.Record
import MediaCatalog.Proofs.Render.Closing
import MediaCatalog.Proofs.Render.Ledger
import MediaCatalog.Proofs.Render.Lookup
import MediaCatalog.Proofs.Render.Map
import MediaCatalog.Proofs.Render.Merger
import MediaCatalog.Proofs.Render.Recording
import MediaCatalog.Proofs.Repository.Answers
import MediaCatalog.Proofs.Repository.Deeds
import MediaCatalog.Proofs.Repository.Effects
import MediaCatalog.Proofs.Repository.Pool
import MediaCatalog.Proofs.Repository.Service
import MediaCatalog.Proofs.Repository.Session
import MediaCatalog.Proofs.Settings
import MediaCatalog.Proofs.StableSort
import MediaCatalog.Proofs.Text.Digit
import MediaCatalog.Proofs.Text.Percent
import MediaCatalog.Proofs.Text.Utf8
import MediaCatalog.Proofs.Web.Answering
import MediaCatalog.Proofs.Web.Confinement
import MediaCatalog.Proofs.Web.EditCheck
import MediaCatalog.Proofs.Web.Effects
import MediaCatalog.Proofs.Web.Frame
import MediaCatalog.Proofs.Web.Guard
import MediaCatalog.Proofs.Web.Handling
import MediaCatalog.Proofs.World
import MediaCatalog.Render.Map
import MediaCatalog.Render.Merger
import MediaCatalog.Report.Size
import MediaCatalog.Report.Table
import MediaCatalog.Repository.Job
import MediaCatalog.Repository.Pool
import MediaCatalog.Repository.Request
import MediaCatalog.Repository.Wiring
import MediaCatalog.Settings
import MediaCatalog.Text.Blank
import MediaCatalog.Text.Digit
import MediaCatalog.Text.Lower
import MediaCatalog.Text.Percent
import MediaCatalog.Text.Printable
import MediaCatalog.Text.Quoted
import MediaCatalog.Text.Ranges
import MediaCatalog.Text.Utf8
import MediaCatalog.Text.Wide
import MediaCatalog.Toml.Document
import MediaCatalog.Toml.Reader
import MediaCatalog.Toml.Scalar
import MediaCatalog.Uri
import MediaCatalog.Web.Guard
import MediaCatalog.Web.Input
import MediaCatalog.Web.Message
import MediaCatalog.Web.Route
import MediaCatalog.Web.Server
import MediaCatalog.Web.Target
import MediaCatalog.World
import MediaCatalog.Proofs.Render.References
import MediaCatalog.Proofs.Number.Fixed
import MediaCatalog.Proofs.Report.Size
import MediaCatalog.Proofs.Settings.Places
import MediaCatalog.Proofs.Preview.Apart
import MediaCatalog.Proofs.Report.Table
