import MiniOverlay.FixedByteCodec
import MiniOverlay.DelimitedFrames
import MiniOverlay.Constants
import MiniOverlay.SegmentFormat
import MiniOverlay.DelimitedRecords
import MiniOverlay.SegmentIo
import MiniOverlay.PacketFormat
import MiniOverlay.PacketIo
import MiniOverlay.ListenToNeighbor
import MiniOverlay.NeighborRelay
import MiniOverlay.PacketStream
import MiniOverlay.FrameReceivers
import MiniOverlay.OrderedWriters
import MiniOverlay.MnpSendInterleaving
import MiniOverlay.RoutingTable
import MiniOverlay.WaitTransport
import MiniOverlay.PartialRuns
import MiniOverlay.FirstMatch
import MiniOverlay.LinkedHeap
import MiniOverlay.LinkedLists
import MiniOverlay.RoutingTableHeap
import MiniOverlay.MrtClientSendBuffer
import MiniOverlay.MrtClientSocket
import MiniOverlay.StreamSend
import MiniOverlay.MrtServerSocket
import MiniOverlay.AscendingCopy
import MiniOverlay.ReceiveQueue
import MiniOverlay.SlotTable
import MiniOverlay.ServerSockets
import MiniOverlay.CumulativeAckWindow
import MiniOverlay.DataPhase
import MiniOverlay.GoBackN
import MiniOverlay.SynReplay
import MiniOverlay.SocketTraffic
import MiniOverlay.Handshake
import MiniOverlay.HandshakeParts
import MiniOverlay.WeightedPaths
import MiniOverlay.Topology
import MiniOverlay.DistanceVector
import MiniOverlay.RouteUpdate
import MiniOverlay.RouteConvergence
import MiniOverlay.ServerStateMachine
import MiniOverlay.ClientStateMachine
import MiniOverlay.ConnectRetry
import MiniOverlay.ClosewaitTimer
import MiniOverlay.RoutedEvents
import MiniOverlay.SendBufferInvariant
import MiniOverlay.AckOrder
import MiniOverlay.SocketIsolation
import MiniOverlay.ServerBounds
import MiniOverlay.SendBufferTimer
import MiniOverlay.ClientReconnect
import MiniOverlay.SocketRuns
import MiniOverlay.StrayAcknowledgement
import MiniOverlay.SequenceWrap
import MiniOverlay.DataCompletion
import MiniOverlay.StreamTransfer
import MiniOverlay.StressTransfer
import MiniOverlay.TimeoutClock
import MiniOverlay.TimerThreads
import MiniOverlay.LinkedBuffer
import MiniOverlay.ClientSockets
import MiniOverlay.SocketAllocation
import MiniOverlay.ServerReuse
import MiniOverlay.SegmentOwnership
import MiniOverlay.DisconnectRetry
import MiniOverlay.Lab2ServerSocket
import MiniOverlay.Lab2Dispatch
import MiniOverlay.Lab2ClientSocket
import MiniOverlay.Lab2Acknowledgement
import MiniOverlay.Lab2SendLoop
import MiniOverlay.Lab2ReceiveQueue
import MiniOverlay.RelayChain
import MiniOverlay.PacketForwarding
import MiniOverlay.HopByHop
import MiniOverlay.RoutingHistory
import MiniOverlay.DvtableCells
import MiniOverlay.RouteRelaxation
import MiniOverlay.RouteAdvertisements
import MiniOverlay.OwnDistanceVector
import MiniOverlay.SegmentReceivers
import MiniOverlay.AllocatedArrays
import MiniOverlay.NeighborArrays
import MiniOverlay.NodeArray
import MiniOverlay.FormattedScan
import MiniOverlay.TopologyFile
import MiniOverlay.OverlaySetup
import MiniOverlay.OverlayTraffic
import MiniOverlay.NeighborTraffic
import MiniOverlay.TransportConnections
import MiniOverlay.WholeStack
import MiniOverlay.ByteConnections
import MiniOverlay.CriticalSections
import MiniOverlay.BufferMutex
import MiniOverlay.RecvThreads
import MiniOverlay.EchoThreads
import MiniOverlay.EchoChildren
