import HttpFs.Foundation.Numeral
import HttpFs.Provider.Containment
import HttpFs.Jsmn.Tokenizer
import HttpFs.Jsmn.Openings
import HttpFs.Foundation.Routine
import HttpFs.Client.Tokens
import HttpFs.Jsmn.Documents
import HttpFs.Jsmn.Placement
import HttpFs.JsonUtils
import HttpFs.Client.Replies
import HttpFs.Client.Operations
import HttpFs.Client.Transfer
import HttpFs.Client.TokenArrays
import HttpFs.Client.AnyServer
import HttpFs.Fuse.Operations
import HttpFs.Fuse.Errors
import HttpFs.Provider.Decode
import HttpFs.Provider.PostBodies
import HttpFs.Foundation.Region
import HttpFs.Foundation.FullTransfer
import HttpFs.Provider.Host
import HttpFs.Foundation.BlockHash
import HttpFs.Foundation.Rfc1321
import HttpFs.Digest.Streaming
import HttpFs.Digest.Sampling
import HttpFs.Provider.Handlers
import HttpFs.Provider.GuardedWrite
import HttpFs.Provider.CalmWrite
import HttpFs.Provider.Requests
import HttpFs.Provider.Queries
import HttpFs.EndToEnd.Transport
import HttpFs.EndToEnd.Serving
import HttpFs.EndToEnd.Replies
import HttpFs.EndToEnd.Reads
import HttpFs.EndToEnd.ShortReads
import HttpFs.Client.OkDocuments
import HttpFs.EndToEnd.WriteServing
import HttpFs.EndToEnd.Writes
import HttpFs.EndToEnd.FileSemantics
import HttpFs.EndToEnd.InterruptedWrites
import HttpFs.Client.WriteEffects
import HttpFs.Client.WriteOutcome
import HttpFs.Client.WrittenFile
import HttpFs.EndToEnd.RequestLines
import HttpFs.Provider.AskedPath
import HttpFs.Provider.Sending
import HttpFs.Provider.RequestEffects
import HttpFs.Provider.Connections
import HttpFs.Provider.Segmentation
import HttpFs.Provider.Framing
import HttpFs.Foundation.LinkedQueue
import HttpFs.Provider.Workers
import HttpFs.Provider.ServerRun
import HttpFs.Provider.HandOff
import HttpFs.Foundation.Custody
import HttpFs.Provider.Ownership
import HttpFs.Provider.Shutdown
import HttpFs.Provider.ConcurrentWrites
import HttpFs.Jsmn.Persistence
import HttpFs.EndToEnd.Metadata
import HttpFs.Foundation.JsonStrings
import HttpFs.Client.Listings
import HttpFs.EndToEnd.Listings
import HttpFs.Jsmn.Lookup
import HttpFs.EndToEnd.ListingCapacity
import HttpFs.Foundation.Integers
import HttpFs.Client.ReplyNumbers
import HttpFs.Provider.ReadablePaths
import HttpFs.Provider.RequestLayouts
import HttpFs.Provider.ResolverAgreement
import HttpFs.Foundation.Logged
import HttpFs.Provider.OffsetSums
import HttpFs.Jsmn.Nesting
import HttpFs.Client.TokenWalks
import HttpFs.Foundation.IntegerSyntax
import HttpFs.Provider.NumericParameters
import HttpFs.Foundation.Audit
import HttpFs.Provider.BufferUse
import HttpFs.Provider.BufferInvariant
import HttpFs.Provider.OversizedRequests
import HttpFs.Provider.ScannerAgreement
import HttpFs.EndToEnd.UsablePaths
import HttpFs.Provider.DotSegments
import HttpFs.Provider.CleanPaths
import HttpFs.EndToEnd.DigestHeaders
import HttpFs.Provider.Utimens
import HttpFs.BoundedEscape
import HttpFs.Provider.ListingBuffer
import HttpFs.Client.BaseUrl
import HttpFs.Digest.Chunks
import HttpFs.Foundation.Formats
import HttpFs.Client.Bodies
import HttpFs.EndToEnd.Messages
import HttpFs.EndToEnd.ErrorReplies
import HttpFs.EndToEnd.PostedChanges
import HttpFs.EndToEnd.Mirrors
import HttpFs.EndToEnd.Changes
import HttpFs.EndToEnd.Lookups
import HttpFs.EndToEnd.Transfers
import HttpFs.EndToEnd.MountSessions
import HttpFs.Provider.DividedWrites
import HttpFs.Provider.Progress
import HttpFs.EndToEnd.WireSessions
import HttpFs.EndToEnd.ReplyDocuments
import HttpFs.EndToEnd.Outages
import HttpFs.Provider.QueueSafety
import HttpFs.Provider.Balance
import HttpFs.EndToEnd.Siblings
