import MojoRs.Lib.Run
import MojoRs.Lib.Circular
import MojoRs.Lib.Bits
import MojoRs.Lib.Bytes
import MojoRs.Lib.Effect
import MojoRs.Lib.Traced
import MojoRs.Lib.Tiling
import MojoRs.Lib.Reorder
import MojoRs.Core.Error
import MojoRs.Core.Handle
import MojoRs.Core.HandleRun
import MojoRs.Core.StaleHandles
import MojoRs.Core.Signal
import MojoRs.Core.MessagePipe
import MojoRs.Core.MessageDelivery
import MojoRs.Core.SignalFinality
import MojoRs.Core.HandleOwnership
import MojoRs.Core.RingBuffer
import MojoRs.Core.DataPipe
import MojoRs.Core.DataPipeStream
import MojoRs.Core.SharedBuffer
import MojoRs.Core.BufferMapping
import MojoRs.Core.Trap
import MojoRs.Core.ArmedTrap
import MojoRs.Core.TrapEvents
import MojoRs.Core.DataPipeEffects
import MojoRs.Core.WholeElements
import MojoRs.Core.DataPipeWatches
import MojoRs.Core.TruthfulSignals
import MojoRs.Wire.Layout
import MojoRs.Wire.Pack
import MojoRs.Wire.PackLayout
import MojoRs.Wire.FieldLayout
import MojoRs.Wire.Value
import MojoRs.Wire.Encode
import MojoRs.Wire.Decode
import MojoRs.Wire.Visits
import MojoRs.Wire.OffsetSafety
import MojoRs.Wire.OffsetWalk
import MojoRs.Wire.PointerBudget
import MojoRs.Wire.Message
import MojoRs.Wire.Conform
import MojoRs.Wire.Codec
import MojoRs.Wire.Objects
import MojoRs.Wire.Structs
import MojoRs.Wire.StructCodec
import MojoRs.Wire.Matching
import MojoRs.Wire.Progress
import MojoRs.Wire.Headers
import MojoRs.Wire.HeaderRoundTrip
import MojoRs.Wire.PointerAlignment
import MojoRs.Wire.HeaderBounds
import MojoRs.Wire.RoundTrip
import MojoRs.Wire.ScalarRoundTrip
import MojoRs.Wire.Overhang
import MojoRs.Wire.InPlace
import MojoRs.Wire.InPlaceProgress
import MojoRs.Wire.NestedRoundTrip
import MojoRs.Wire.UnionRoundTrip
import MojoRs.Wire.EncoderSoundness
import MojoRs.Wire.Evolution
import MojoRs.Wire.MessageObjects
import MojoRs.Wire.ClaimedObjects
import MojoRs.Wire.DecodedTypes
import MojoRs.Wire.Reencoding
import MojoRs.System.DataPipe
import MojoRs.System.Transactions
import MojoRs.Ipcz.Wire
import MojoRs.Ipcz.Messages
import MojoRs.Ipcz.DecodeAccesses
import MojoRs.Ipcz.DecodeBounds
import MojoRs.Ipcz.DescriptorSpans
import MojoRs.Ipcz.Encoders
import MojoRs.Ipcz.MessageLayout
import MojoRs.Ipcz.DriverObjects
import MojoRs.Ipcz.MessageCodec
import MojoRs.Ipcz.ParcelCodec
import MojoRs.Ipcz.BlockAllocator
import MojoRs.Ipcz.BlockAllocatorSafety
import MojoRs.Ipcz.CapacityExpansion
import MojoRs.Ipcz.Channel
import MojoRs.Ipcz.ChannelReassembly
import MojoRs.Ipcz.ChannelSend
import MojoRs.Ipcz.Relay
import MojoRs.Ipcz.RelayedDelivery
import MojoRs.Ipcz.LinkStateAtomics
import MojoRs.Ipcz.LinkBuffers
import MojoRs.Ipcz.AcceptorEffects
import MojoRs.Ipcz.SplitParcels
import MojoRs.Ipcz.LinkMemory
import MojoRs.Ipcz.LinkLocks
import MojoRs.Ipcz.Router
import MojoRs.Ipcz.Node
import MojoRs.Ipcz.RouterFlush
import MojoRs.Ipcz.RouterOps
import MojoRs.Ipcz.Dispatch
import MojoRs.Ipcz.DispatchFrames
import MojoRs.Ipcz.NodeFrames
import MojoRs.Ipcz.BlockBuffers
import MojoRs.Ipcz.BridgeBypass
import MojoRs.Ipcz.BypassSteps
import MojoRs.Ipcz.ParcelContents
import MojoRs.Ipcz.FlushFrames
import MojoRs.Ipcz.AttachedObjects
import MojoRs.Ipcz.RouterIdentity
import MojoRs.Ipcz.EarlyParcels
import MojoRs.Ipcz.LocalFlush
import MojoRs.Ipcz.BypassAuthority
import MojoRs.Ipcz.IntroductionTurns
import MojoRs.Ipcz.Introductions
import MojoRs.Ipcz.Connect
import MojoRs.Ipcz.ClosureDirection
import MojoRs.Ipcz.BypassedRoutes
import MojoRs.Ipcz.ParcelFragments
import MojoRs.Ipcz.RouteTeardown
import MojoRs.Ipcz.JoinedNodes
import MojoRs.Ipcz.SequencedQueue
import MojoRs.Ipcz.DecayHandover
import MojoRs.Ipcz.OutboundNumbers
import MojoRs.Ipcz.ParcelHistory
import MojoRs.Ipcz.RouterLife
import MojoRs.Ipcz.PortalTransfer
import MojoRs.Ipcz.RouterDescriptors
import MojoRs.Lib.Frames
import MojoRs.Ipcz.StreamParsing
import MojoRs.Lib.Program
import MojoRs.Lib.Refinement
import MojoRs.Lib.Ownership
import MojoRs.Lib.PageTable
import MojoRs.Ipcz.LinkPrograms
import MojoRs.Ipcz.DescriptorBounds
import MojoRs.Ipcz.HostilePeer
import MojoRs.Ipcz.FreeLists
import MojoRs.Ipcz.HeldFragments
import MojoRs.Ipcz.FreshBlocks
import MojoRs.Ipcz.JoinedDelivery
import MojoRs.Ipcz.LateParcels
import MojoRs.Core.BlockingWait
import MojoRs.Lib.Fairness
import MojoRs.Core.WaitProgress
import MojoRs.Casefile.Compare
import MojoRs.Casefile.TrapRuns
import MojoRs.Casefile.Differential
import MojoRs.Core.BufferMapping
import MojoRs.Core.BufferContents
import MojoRs.Core.BufferResources
