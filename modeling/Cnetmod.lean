import Cnetmod.Raft.Guarantees.ReadIndex
import Cnetmod.Raft.Guarantees.Reconfiguration
import Cnetmod.Raft.Guarantees.JointCommit
import Cnetmod.Raft.Guarantees.DurableVotes
import Cnetmod.Raft.Guarantees.SnapshotInstall
import Cnetmod.Raft.Guarantees.RestartConfiguration
import Cnetmod.Raft.Guarantees.ConfigurationSteps
import Cnetmod.Http.Guarantees.HeaderSync
import Cnetmod.Http.Guarantees.HeaderDecoding
import Cnetmod.Http.Guarantees.InsertCount
import Cnetmod.Http.Guarantees.IntegerDecoding
import Cnetmod.Http.Guarantees.CacheGroups
import Cnetmod.Http.Guarantees.Segmentation
import Cnetmod.Http.Guarantees.Fragmentation
import Cnetmod.Http.Guarantees.SendCredit
import Cnetmod.Http.Guarantees.RequestFraming
import Cnetmod.Raft.Guarantees.SnapshotReassembly
import Cnetmod.Raft.Guarantees.SnapshotCredit
import Cnetmod.Raft.Guarantees.AppendContract
import Cnetmod.Raft.Guarantees.LeaderLease
import Cnetmod.Raft.Guarantees.LeveldbRefinement
import Cnetmod.Quic.Guarantees.AckReports
import Cnetmod.Quic.Guarantees.FlightAccounting
import Cnetmod.Quic.Guarantees.ReliableFrames
import Cnetmod.Quic.Guarantees.CryptoReassembly
import Cnetmod.Quic.Guarantees.PacketReplay
import Cnetmod.Quic.Guarantees.StreamReassembly
import Cnetmod.Quic.Guarantees.PacketNumbers
import Cnetmod.Mqtt.Guarantees.Authorization
import Cnetmod.Mqtt.Guarantees.SharedDelivery
import Cnetmod.Mqtt.Guarantees.ExactlyOnce
import Cnetmod.Mqtt.Guarantees.Takeover
import Cnetmod.Mqtt.Guarantees.PacketIdentifiers
import Cnetmod.Coro.Guarantees.Mutex
import Cnetmod.Coro.Guarantees.SharedMutex
import Cnetmod.Mqtt.Guarantees.TopicAliases
import Cnetmod.Coro.Guarantees.Semaphore
import Cnetmod.Coro.Guarantees.WaitGroup
import Cnetmod.Coro.Guarantees.Cancellation
import Cnetmod.WebSocket.Guarantees.LegalFrames
import Cnetmod.Coro.Guarantees.Channel
import Cnetmod.Mongo.Guarantees.Topology
import Cnetmod.Coap.Guarantees.Block1
import Cnetmod.Kafka.Guarantees.ReadCommitted
import Cnetmod.Kafka.Guarantees.StagedOffsets
