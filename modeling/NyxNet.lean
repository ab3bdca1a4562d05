import NyxNet.Control.SettingsSync
import NyxNet.Crypto.EncryptionSystem
import NyxNet.Crypto.NoiseAgreement
import NyxNet.Crypto.SecureChannel
import NyxNet.Daemon.BucketRecency
import NyxNet.Daemon.ClosestPeers
import NyxNet.Daemon.ConfigManager
import NyxNet.Daemon.ConfigUpdates
import NyxNet.Daemon.ConfigVersions
import NyxNet.Daemon.ConnectionPool
import NyxNet.Daemon.DhtExpiry
import NyxNet.Daemon.DhtWire
import NyxNet.Daemon.EventQueue
import NyxNet.Daemon.IterativeLookup
import NyxNet.Daemon.LostUpdates
import NyxNet.Daemon.NodeLookup
import NyxNet.Daemon.OnionNonces
import NyxNet.Daemon.OnionPath
import NyxNet.Daemon.P2pHandshake
import NyxNet.Daemon.PeerDiscovery
import NyxNet.Daemon.PeerStore
import NyxNet.Daemon.RollbackMonitor
import NyxNet.Daemon.RoutingPersistence
import NyxNet.Daemon.SessionCleanup
import NyxNet.Daemon.SessionStatistics
import NyxNet.Fec.RaptorQ
import NyxNet.Lib.AddressText
import NyxNet.Lib.BytesMut
import NyxNet.Lib.Future
import NyxNet.Mix.CmixController
import NyxNet.Sdk.NyxStream
import NyxNet.Sdk.StreamWrites
import NyxNet.Stream.Ack
import NyxNet.Stream.CongestionCtrl
import NyxNet.Stream.FlowController
import NyxNet.Stream.FrameReassembly
import NyxNet.Stream.Multipath
import NyxNet.Stream.ResourceCleanup
import NyxNet.Stream.ResourceLimits
import NyxNet.Stream.SchedulerChurn
import NyxNet.Stream.StreamTransfer
import NyxNet.Stream.TxSequence
import NyxNet.Transport.PathWaiters
import NyxNet.Transport.TcpFallback
import NyxNet.Crypto.ReplayCheck
import NyxNet.Stream.ReorderOverflow
import NyxNet.Crypto.NoiseRetries
import NyxNet.Sdk.CircuitBreaker
import NyxNet.Sdk.Reconnect
import NyxNet.Daemon.EventSubscribers
import NyxNet.Daemon.PathCache
import NyxNet.Daemon.HealthMonitor
import NyxNet.Daemon.AlertCooldown
import NyxNet.Daemon.AlertSystem
import NyxNet.Stream.Management
import NyxNet.Stream.Capability
import NyxNet.Stream.FrameWriter
import NyxNet.Stream.SendPermission
import NyxNet.Stream.CongestionArithmetic
import NyxNet.Stream.SendBuffer
import NyxNet.Lib.FirstMatch
import NyxNet.Stream.ErrorHandler
import NyxNet.Stream.StreamOffsets
import NyxNet.Lib.DistinctDraws
import NyxNet.Stream.MprDispatcher
import NyxNet.Lib.StrongProbablePrime
import NyxNet.Mix.PrimalCheck
import NyxNet.Mix.KeyCeremony
import NyxNet.Lib.BitSmear
import NyxNet.Mix.VdfCalib
import NyxNet.Lib.WeightedDraw
import NyxNet.Mix.CmixShutdown
import NyxNet.Mix.WeightedPath
import NyxNet.Mix.AdaptiveCover
import NyxNet.Mix.Larmix
import NyxNet.Lib.AttributeWalk
import NyxNet.Transport.Stun
import NyxNet.Daemon.DiversePeers
import NyxNet.Sdk.RetryExecutor
import NyxNet.Daemon.DhtBootstrap
import NyxNet.Daemon.DiscoveredPath
import NyxNet.Daemon.DiscoveryRequest
import NyxNet.Formal.MultipathPlugin
import NyxNet.Daemon.LayerRuns
import NyxNet.Daemon.LayerLocks
import NyxNet.Daemon.StreamCleanup
import NyxNet.Daemon.StreamGauge
import NyxNet.Daemon.StreamLimit
import NyxNet.Daemon.StreamNumbers
