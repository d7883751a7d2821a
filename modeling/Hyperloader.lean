import Hyperloader.Foundations.Bitmap
import Hyperloader.Foundations.ByteFrame
import Hyperloader.Foundations.CycleWalk
import Hyperloader.Foundations.Fallible
import Hyperloader.Foundations.Feistel
import Hyperloader.Foundations.FiniteMap
import Hyperloader.Foundations.Interning
import Hyperloader.Foundations.PrefixSet
import Hyperloader.Foundations.Sharding
import Hyperloader.Foundations.Transition
import Hyperloader.Foundations.TicketQueue
import Hyperloader.Foundations.TicketReceipt
import Hyperloader.Foundations.TicketOrder
import Hyperloader.Foundations.TicketWrap
import Hyperloader.Foundations.TicketAlone
import Hyperloader.Schedule.Native
import Hyperloader.Schedule.Invariant
import Hyperloader.Schedule.Fallback
import Hyperloader.Process.Serialization
import Hyperloader.Process.Codec
import Hyperloader.Process.Rng
import Hyperloader.Process.Worker
import Hyperloader.Process.Epochs
import Hyperloader.Process.EpochProgress
import Hyperloader.Random.Philox
import Hyperloader.Random.Permutation
import Hyperloader.Random.Fallback
import Hyperloader.Random.Selection
import Hyperloader.Random.Surfaces
import Hyperloader.Random.Keys
import Hyperloader.Compat.LanePool
import Hyperloader.Compat.LaneRuntime
import Hyperloader.Compat.Ambient
import Hyperloader.Compat.Conservation
import Hyperloader.Compat.Coverage
import Hyperloader.Compat.Deal
import Hyperloader.Compat.InOrder
import Hyperloader.Compat.Resume
import Hyperloader.Compat.Zero
import Hyperloader.Transport.Message
import Hyperloader.Transport.Ring
import Hyperloader.Transport.Commands
import Hyperloader.Transport.Layout
import Hyperloader.Distributed.Placement
import Hyperloader.Distributed.Ranks
import Hyperloader.Distributed.MapPlacement
import Hyperloader.Distributed.Products
import Hyperloader.Distributed.Elastic
import Hyperloader.State.Delivery
import Hyperloader.State.MapState
import Hyperloader.State.Payload
import Hyperloader.State.ElasticResume
import Hyperloader.Process.Frontier
import Hyperloader.Process.Completion
import Hyperloader.Foundations.Batching
import Hyperloader.Foundations.Handout
import Hyperloader.Process.Pool
import Hyperloader.Process.Resume
import Hyperloader.Foundations.Procession
import Hyperloader.Process.InOrder
import Hyperloader.Thread.InOrder
import Hyperloader.Thread.Iterator
import Hyperloader.InProcess.Iterator
import Hyperloader.Tensor.Iterator
import Hyperloader.State.Tiers
import Hyperloader.Iterable.State
import Hyperloader.Foundations.JsonText
import Hyperloader.Arena.Registry
import Hyperloader.Arena.Identity
import Hyperloader.Arena.Region
import Hyperloader.Arena.Writer
import Hyperloader.Arena.Sweep
import Hyperloader.Arena.Allocator
import Hyperloader.Arena.Slots
import Hyperloader.Arena.Turn
import Hyperloader.Arena.Custody
import Hyperloader.Arena.Reservations
import Hyperloader.Arena.Shelves
import Hyperloader.Arena.Levels
import Hyperloader.Foundations.Pulled
import Hyperloader.Iterable.Runtime
import Hyperloader.Iterable.Resume
import Hyperloader.Iterable.Call
import Hyperloader.Memory.Pinned
import Hyperloader.Process.Liveness
import Hyperloader.Process.Restart
import Hyperloader.Process.Submission
import Hyperloader.Process.Sending
import Hyperloader.Api.DataLoader
import Hyperloader.Api.Ranks
import Hyperloader.Foundations.Effects
import Hyperloader.Owner.Resources
import Hyperloader.Owner.Conservation
import Hyperloader.Owner.Commands
import Hyperloader.Owner.Provided
import Hyperloader.Owner.RegionPlan
import Hyperloader.Owner.Sufficiency
import Hyperloader.Foundations.Rolling
import Hyperloader.State.Sampler
import Hyperloader.State.SamplerIterator
import Hyperloader.State.SamplerResume
import Hyperloader.Control.DutyTuner
import Hyperloader.Control.Objective
import Hyperloader.Control.AdaptiveController
import Hyperloader.Control.MachineKeeper
import Hyperloader.Profile.CostProfile
import Hyperloader.Profile.Interchange
import Hyperloader.Profile.Store
import Hyperloader.Memory.PinnedWait
import Hyperloader.Memory.PinnedPool
import Hyperloader.Collate.Default
import Hyperloader.Foundations.OrderStatistic
import Hyperloader.Telemetry.Histogram
import Hyperloader.Telemetry.Recorder
import Hyperloader.Random.WordStream
import Hyperloader.Process.Routing
import Hyperloader.Process.SamplerRouting
import Hyperloader.Structured.Adapter
import Hyperloader.Structured.Iterator
import Hyperloader.Structured.Delivery
import Hyperloader.Foundations.Lending
import Hyperloader.Foundations.Ledger
import Hyperloader.Fallback.Resources
import Hyperloader.Fallback.Endpoint
import Hyperloader.Fallback.Calls
import Hyperloader.Fallback.Conservation
import Hyperloader.Fallback.Runs
import Hyperloader.Telemetry.Percentile
