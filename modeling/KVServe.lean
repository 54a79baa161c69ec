import KVServe.Compression.Adapter
import KVServe.Compression.BitPack
import KVServe.Compression.BitPackIndices
import KVServe.Compression.BitPackPayload
import KVServe.Compression.CenteredCodebook
import KVServe.Compression.CodebookGroups
import KVServe.Compression.LayerCalls
import KVServe.Compression.LayerIds
import KVServe.Compression.Lossy
import KVServe.Compression.Manager
import KVServe.Compression.Parameters
import KVServe.Compression.Progress
import KVServe.Compression.Quantizer
import KVServe.Compression.QuantizerBound
import KVServe.Compression.RoundTrip
import KVServe.Compression.Value
import KVServe.Compression.Wire
import KVServe.Connector.Accounts
import KVServe.Connector.BlockCopies
import KVServe.Connector.CompressedPath
import KVServe.Connector.Engine
import KVServe.Connector.Pairing
import KVServe.Connector.Passes
import KVServe.Connector.Prefill
import KVServe.Connector.Scheduler
import KVServe.Controller.AnalyticalModel
import KVServe.Controller.OnlineController
import KVServe.Controller.Persistence
import KVServe.Controller.ProfileLibrary
import KVServe.Controller.Requirement
import KVServe.Controller.Runs
import KVServe.Controller.Selection
import KVServe.Engine.Batches
import KVServe.Engine.Chunks
import KVServe.Engine.CoalescedCopies
import KVServe.Engine.HeadCopies
import KVServe.Engine.OpenProducer
import KVServe.Engine.RawRegions
import KVServe.Engine.Receive
import KVServe.Engine.ReceiveOutcomes
import KVServe.Engine.ReceiveReports
import KVServe.Engine.Regions
import KVServe.Engine.ServeChunk
import KVServe.Engine.Transfer
import KVServe.Engine.Windows
import KVServe.Lib.Assoc
import KVServe.Lib.BitStream
import KVServe.Lib.Blocks
import KVServe.Lib.Channel
import KVServe.Lib.Elements
import KVServe.Lib.FreeList
import KVServe.Lib.Hadamard
import KVServe.Lib.Int32
import KVServe.Lib.ListHeap
import KVServe.Lib.Quantization
import KVServe.Lib.Span
import KVServe.Lib.Stores
import KVServe.Lib.Strided
import KVServe.Lib.Transition
import KVServe.Runtime.AggregateRoundTrip
import KVServe.Runtime.Audit
import KVServe.Runtime.Blocks
import KVServe.Runtime.Body
import KVServe.Runtime.CacheColumns
import KVServe.Runtime.ChunkRoundTrip
import KVServe.Runtime.ChunkSizes
import KVServe.Runtime.CompressionRuntime
import KVServe.Runtime.ExactBound
import KVServe.Runtime.ExactLayout
import KVServe.Runtime.ExactQuantizer
import KVServe.Runtime.Fwht
import KVServe.Runtime.FwhtAgree
import KVServe.Runtime.FwhtRows
import KVServe.Runtime.HeadOrders
import KVServe.Runtime.IndexRows
import KVServe.Runtime.LayerRoundTrip
import KVServe.Runtime.Layout
import KVServe.Runtime.LosslessChunks
import KVServe.Runtime.Memory
import KVServe.Runtime.Numerics
import KVServe.Runtime.Pipeline
import KVServe.Runtime.Placement
import KVServe.Runtime.Scores
import KVServe.Runtime.SlotRoom
import KVServe.Runtime.Tail
import KVServe.Runtime.Totality
import KVServe.Runtime.Workspace
import KVServe.Session.Book
import KVServe.Session.BookClaims
import KVServe.Session.BookEvolution
import KVServe.Session.BookRelease
import KVServe.Session.Consumer
import KVServe.Session.ConsumerDecode
import KVServe.Session.ConsumerRuns
import KVServe.Session.ConsumerSlots
import KVServe.Session.ConsumerTalk
import KVServe.Session.ConsumerTasks
import KVServe.Session.Handshake
import KVServe.Session.Helper
import KVServe.Session.Producer
import KVServe.Session.ProducerAbort
import KVServe.Session.ProducerConduct
import KVServe.Session.ProducerInside
import KVServe.Session.ProducerRelease
import KVServe.Session.ProducerRuns
import KVServe.Session.ProducerSlots
import KVServe.Session.Protocol
import KVServe.Session.System
import KVServe.Session.TpPairing
import KVServe.Transport.Accounting
import KVServe.Transport.Budget
import KVServe.Transport.Delivery
import KVServe.Transport.Link
import KVServe.Transport.Payload
import KVServe.Transport.Receiver
import KVServe.Transport.ReceiverCredits
import KVServe.Transport.ReceiverPriority
import KVServe.Transport.Sender
import KVServe.Lib.Custody
import KVServe.Lib.Launch
import KVServe.Lib.Reduction
import KVServe.Runtime.KernelCells
import KVServe.Runtime.KernelQuantize
import KVServe.Runtime.PlanChunks
import KVServe.Store.Data
import KVServe.Store.Drain
import KVServe.Store.ResumeOffset
