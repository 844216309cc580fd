import Cnetmod.Consensus.Run
import Cnetmod.Raft.Source.Handlers

/-!
# Clusters of nodes

What `raft_tcp_transport::dispatch_message` and `raft_node_runtime` do with a
node, one call at a time. The network keeps every message ever sent: delivering
does not remove one, so a run may lose, delay, repeat and reorder messages at
will. Follow-up calls the transport makes after a response are separate actions,
which a run may take at any later point or never.
-/
namespace Cnetmod.Raft

inductive Message where
  | requestVote (req : RequestVoteRequest)
  | voteResponse (resp : RequestVoteResponse)
  | timeoutNow (req : TimeoutNowRequest)
  | appendEntries (req : AppendEntriesRequest)
  | appendResponse (resp : AppendEntriesResponse)
  | installSnapshot (req : InstallSnapshotRequest)
  | installSnapshotResponse (resp : InstallSnapshotResponse)
  deriving DecidableEq

/-- `dst = none` is a broadcast to the sender's peers. -/
structure Envelope where
  src : NodeId
  dst : Option NodeId
  body : Message

/-- Calls made on a node by its own process. -/
inductive Call where
  | beginPreVote
  | beginElection
  | makeAppendEntries (peer : NodeId)
  | markAppendSent (peer : NodeId) (lastIndex : Nat)
  | makeInstallSnapshot (peer : NodeId)
  | markSnapshotSent (peer : NodeId)
  | appendCommand (command : String)
  | changeConfiguration (change : RaftNode.ConfigurationChange)
  | transferLeader (target : NodeId)
  | takePendingLeaderTransfer (peer : NodeId)
  | createSnapshot (uri : String)
  | maybeCreateSnapshot (policy : RaftSnapshotPolicy)
  | readIndex (request : ReadIndexRequest)
  | consumeReadIndex (id : Nat)
  | expireReadIndexes (timeout : Int)
  | checkLeaderQuorum (timeout : Int)
  | stop (error : RaftError)
  deriving DecidableEq

inductive Input where
  | call (call : Call)
  | receive (src : NodeId) (body : Message)
  | restart (machine : Option StateMachine)
  deriving DecidableEq

namespace RaftNode

def post (n : RaftNode) (dst : Option NodeId) (body : Message) : List Envelope :=
  [{ src := n.id, dst := dst, body := body }]

def invoke (n : RaftNode) : Call → RaftNode × List Envelope
  | .beginPreVote =>
    let (n, req) := n.beginPreVote
    (n, n.post none (.requestVote req))
  | .beginElection =>
    let (n, req) := n.beginElection
    (n, n.post none (.requestVote req))
  | .makeAppendEntries peer => (n, n.post peer (.appendEntries (n.makeAppendEntries peer)))
  | .markAppendSent peer lastIndex => (n.markAppendSent peer lastIndex, [])
  | .makeInstallSnapshot peer => (n, n.post peer (.installSnapshot n.makeInstallSnapshot))
  | .markSnapshotSent peer => (n.markSnapshotSent peer, [])
  | .appendCommand command => ((n.appendCommand command).1, [])
  | .changeConfiguration change => ((n.changeConfiguration change).1, [])
  | .transferLeader target =>
    match n.transferLeader target with
    | (n, .ok (some request)) => (n, n.post target (.timeoutNow request))
    | (n, _) => (n, [])
  | .takePendingLeaderTransfer peer =>
    match n.takePendingLeaderTransfer peer with
    | (n, some request) => (n, n.post peer (.timeoutNow request))
    | (n, none) => (n, [])
  | .createSnapshot uri => ((n.createSnapshot uri).1, [])
  | .maybeCreateSnapshot policy => ((n.maybeCreateSnapshot policy).1, [])
  | .readIndex request => ((n.readIndex request).1, [])
  | .consumeReadIndex id => ((n.consumeReadIndex id).1, [])
  | .expireReadIndexes timeout => ((n.expireReadIndexes timeout).1, [])
  | .checkLeaderQuorum timeout => ((n.checkLeaderQuorum timeout).1, [])
  | .stop error => (n.stop error, [])

/-- `dispatch_message`: requests are answered to the sender. -/
def dispatch (n : RaftNode) (src : NodeId) : Message → RaftNode × List Envelope
  | .requestVote req =>
    let (n, resp) := n.handleRequestVote req
    (n, n.post src (.voteResponse resp))
  | .voteResponse resp => ((n.handleVoteResponse src resp).1, [])
  | .timeoutNow req =>
    match n.handleTimeoutNow req with
    | (n, some vote) => (n, n.post none (.requestVote vote))
    | (n, none) => (n, [])
  | .appendEntries req =>
    let (n, resp) := n.handleAppendEntries req
    (n, n.post src (.appendResponse resp))
  | .appendResponse resp => ((n.handleAppendEntriesResponse src resp).1, [])
  | .installSnapshot req =>
    let (n, resp) := n.handleInstallSnapshot req
    (n, n.post src (.installSnapshotResponse resp))
  | .installSnapshotResponse resp => ((n.handleInstallSnapshotResponse src resp).1, [])

def react (n : RaftNode) (clock : Int) : Input → RaftNode × List Envelope
  | .call call => { n with clock := clock }.invoke call
  | .receive src body => { n with clock := clock }.dispatch src body
  | .restart machine => (n.restart machine clock, [])

end RaftNode

structure Cluster where
  members : Finset NodeId
  nodes : NodeId → RaftNode
  sent : List Envelope := []

/-- `deliver k dst` hands the `k`-th message ever sent to `dst`. -/
inductive Action where
  | call (id : NodeId) (clock : Int) (call : Call)
  | deliver (k : Nat) (dst : NodeId) (clock : Int)
  | restart (id : NodeId) (machine : Option StateMachine) (clock : Int)
  | idle
  deriving DecidableEq

def Envelope.addressedTo (m : Envelope) (id : NodeId) : Bool :=
  match m.dst with
  | some dst => dst = id
  | none => id ≠ m.src

namespace Cluster

def react (c : Cluster) (id : NodeId) (clock : Int) (input : Input) : Cluster :=
  if id ∈ c.members then
    let (n, out) := (c.nodes id).react clock input
    { c with nodes := Function.update c.nodes id n, sent := c.sent ++ out }
  else c

def step (c : Cluster) : Action → Cluster
  | .call id clock call => c.react id clock (.call call)
  | .deliver k dst clock =>
    match c.sent[k]? with
    | some m => if m.addressedTo dst then c.react dst clock (.receive m.src m.body) else c
    | none => c
  | .restart id machine clock => c.react id clock (.restart machine)
  | .idle => c

/-- Fresh nodes over empty stores whose writes all succeed. -/
def boot (members : Finset NodeId) (cfg : NodeId → RaftConfig)
    (machine : NodeId → Option StateMachine) (clock : Int) : Cluster where
  members := members
  nodes := fun id => RaftNode.create (cfg id) {} (machine id) clock

abbrev stateAt (c : Cluster) (acts : Nat → Action) : Nat → Cluster :=
  Consensus.runState step c acts

end Cluster

end Cnetmod.Raft
