import WeighingSync.Common.Transition
import WeighingSync.Common.Window
import WeighingSync.Common.AllOrNothing
import WeighingSync.Common.DecodedWindow
import WeighingSync.Common.Chunks
import WeighingSync.Common.Frame
import WeighingSync.Common.KeyedTable
import WeighingSync.Common.LastWriter
import WeighingSync.Common.IdHistory
import WeighingSync.Common.Lockstep
import WeighingSync.Common.Quoted
import WeighingSync.Common.Paging
import WeighingSync.Common.Runs
import WeighingSync.Common.Custody
import WeighingSync.Common.Replay
import WeighingSync.Common.Drain
import WeighingSync.Common.Locked
import WeighingSync.Go.Strings
import WeighingSync.Go.Bytes
import WeighingSync.Go.Order
import WeighingSync.Go.Time
import WeighingSync.Go.TimeText
import WeighingSync.Go.Collation
import WeighingSync.Go.Url
import WeighingSync.Go.Utf8
import WeighingSync.Go.Json
import WeighingSync.Go.JsonDecode
import WeighingSync.Go.JsonStruct
import WeighingSync.Go.JsonRoundTrip
import WeighingSync.Go.JsonCut
import WeighingSync.Go.JsonTorn
import WeighingSync.Go.JsonNumbers
import WeighingSync.Go.JsonRaw
import WeighingSync.Go.Float
import WeighingSync.Go.JsonValue
import WeighingSync.Go.JsonParsed
import WeighingSync.Go.Http
import WeighingSync.Go.Truncate
import WeighingSync.Uploader.Config
import WeighingSync.Uploader.Source
import WeighingSync.Uploader.ColumnBytes
import WeighingSync.Uploader.State
import WeighingSync.Uploader.StateLog
import WeighingSync.Uploader.Sync
import WeighingSync.Uploader.Starvation
import WeighingSync.Uploader.Delivery
import WeighingSync.Uploader.Confirmation
import WeighingSync.Uploader.Agreement
import WeighingSync.Uploader.Edits
import WeighingSync.Receiver.Record
import WeighingSync.Receiver.Store
import WeighingSync.Receiver.Query
import WeighingSync.Receiver.Delete
import WeighingSync.Receiver.Post
import WeighingSync.Receiver.Accounting
import WeighingSync.Receiver.Refusal
import WeighingSync.Receiver.Identity
import WeighingSync.Receiver.Signature
import WeighingSync.Receiver.Nonces
import WeighingSync.Receiver.Actions
import WeighingSync.Receiver.Server
import WeighingSync.Receiver.Retention
import WeighingSync.Receiver.QueryExact
import WeighingSync.Receiver.Paging
import WeighingSync.Receiver.Redelivery
import WeighingSync.Receiver.Drivers
import WeighingSync.Receiver.BackEnds
import WeighingSync.Receiver.Settings
import WeighingSync.Receiver.MinAge
import WeighingSync.Receiver.Credentials
import WeighingSync.Receiver.Filing
import WeighingSync.Receiver.Batches
import WeighingSync.Replicator.Store
import WeighingSync.Replicator.Fetch
import WeighingSync.Replicator.Cluster
import WeighingSync.Replicator.Cleanup
import WeighingSync.Replicator.Requeue
import WeighingSync.Replicator.Versions
import WeighingSync.Replicator.Outbox
import WeighingSync.Replicator.Fidelity
import WeighingSync.Replicator.FetchPass
import WeighingSync.Replicator.Assigned
import WeighingSync.Replicator.Backoff
import WeighingSync.Replicator.Handover
import WeighingSync.Replicator.Replica
import WeighingSync.Replicator.Provenance
import WeighingSync.Replicator.Draining
import WeighingSync.Engine.Upload
import WeighingSync.Engine.Rfc3339
import WeighingSync.Engine.Cache
import WeighingSync.Engine.CacheRoundTrip
import WeighingSync.Engine.OldestFirst
import WeighingSync.Engine.SyncEngine
import WeighingSync.Engine.Source
import WeighingSync.Engine.Decimals
import WeighingSync.Engine.SqlServerEngine
import WeighingSync.Engine.OwnBatch
import WeighingSync.Engine.Edits
import WeighingSync.Engine.WriteBack
import WeighingSync.Engine.Retry
import WeighingSync.Engine.WebSocket
import WeighingSync.Engine.Acknowledged
import WeighingSync.Engine.AckTimeout
import WeighingSync.Engine.History
import WeighingSync.Engine.Draining
import WeighingSync.Engine.Daemon
import WeighingSync.Inbound.Server
import WeighingSync.Inbound.Register
import WeighingSync.Inbound.Token
import WeighingSync.Inbound.Loopback
import WeighingSync.Rejection
import WeighingSync.Signing
import WeighingSync.Replicator.LastError
import WeighingSync.CanonicalQuery
import WeighingSync.SqlNames
import WeighingSync.Pipeline
