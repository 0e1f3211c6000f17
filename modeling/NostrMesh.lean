import NostrMesh.Lib.Bech32
import NostrMesh.Lib.Bytes
import NostrMesh.Lib.Delimited
import NostrMesh.Lib.Feed
import NostrMesh.Lib.Hub
import NostrMesh.Lib.Js
import NostrMesh.Lib.Json
import NostrMesh.Lib.JsonText
import NostrMesh.Lib.Keyed
import NostrMesh.Lib.LeadingZeros
import NostrMesh.Lib.Mealy
import NostrMesh.Lib.Newest
import NostrMesh.Lib.Program
import NostrMesh.Lib.Register
import NostrMesh.Lib.SortedSet
import NostrMesh.Lib.Table
import NostrMesh.Lib.Window
import NostrMesh.Nostr.Event
import NostrMesh.Relay.Schema
import NostrMesh.Relay.EventRepository
import NostrMesh.Relay.Strategies
import NostrMesh.Relay.Subscription
import NostrMesh.Relay.Filters
import NostrMesh.Relay.PrefixConditions
import NostrMesh.Relay.Addresses
import NostrMesh.Relay.StoredAnswers
import NostrMesh.Relay.Partition
import NostrMesh.Relay.IndexedTags
import NostrMesh.Relay.Settings
import NostrMesh.Relay.ProofOfWork
import NostrMesh.Relay.AdmissionPolicy
import NostrMesh.Relay.Archive
import NostrMesh.Relay.Convergence
import NostrMesh.Relay.TagArchive
import NostrMesh.Relay.Traffic
import NostrMesh.Relay.ClientPath
import NostrMesh.Relay.StoreInvariant
import NostrMesh.Relay.Authentication
import NostrMesh.Relay.Replies
import NostrMesh.Relay.Deletion
import NostrMesh.Relay.Resumption
import NostrMesh.Relay.Mirroring
import NostrMesh.Relay.Flooding
import NostrMesh.Relay.Spreading
import NostrMesh.Relay.Connection
import NostrMesh.Relay.SubscriptionLimits
import NostrMesh.Relay.CurrentEvents
import NostrMesh.Relay.LiveEvents
import NostrMesh.Relay.Columns
import NostrMesh.Relay.Lossless
import NostrMesh.Relay.Identity
import NostrMesh.Relay.Authenticity
import NostrMesh.Relay.Expiry
import NostrMesh.Relay.Workers
import NostrMesh.Relay.Supervision
import NostrMesh.Relay.ConcurrentHits
import NostrMesh.Blossom.Server
import NostrMesh.Blossom.Addressing
import NostrMesh.Api.Crypto
import NostrMesh.Api.Metadata
import NostrMesh.Api.NostrClient
import NostrMesh.Api.BlossomClient
import NostrMesh.Api.Reference
import NostrMesh.Api.Tampering
import NostrMesh.Api.AuthTokens
import NostrMesh.Api.Resolve
import NostrMesh.Api.Shelf
import NostrMesh.Api.Blobs
import NostrMesh.Api.System
import NostrMesh.Api.HashBinding
import NostrMesh.Api.MetadataEvents
import NostrMesh.Api.HexText
import NostrMesh.Api.Availability
import NostrMesh.Api.SecretKey
import NostrMesh.Api.Handlers
import NostrMesh.Api.Progress
import NostrMesh.Api.RoundTrip
import NostrMesh.Api.RejectedUpload
import NostrMesh.Api.SoftDelete
import NostrMesh.Payments.Ledger
import NostrMesh.Payments.Transform
import NostrMesh.Payments.Service
import NostrMesh.Payments.Callbacks
import NostrMesh.Payments.Admission
import NostrMesh.Payments.Settlement
import NostrMesh.Payments.OwnInvoice
import NostrMesh.Payments.PublicKey
import NostrMesh.Payments.Atomicity
import NostrMesh.Payments.Completion
import NostrMesh.Payments.StatusOrder
import NostrMesh.Payments.Balances
import NostrMesh.Mesh.Whitelist
import NostrMesh.Runes.Alternative
import NostrMesh.Runes.RuneLike
import NostrMesh.Runes.Codec
