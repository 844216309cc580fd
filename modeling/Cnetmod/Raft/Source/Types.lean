import Mathlib.Data.String.Basic

/-!
# Raft wire and state records

Records of `src/protocol/raft/raft_types.cppm`. Terms, log indexes and request
ids are unbounded naturals. In a closed cluster each only ever grows by one or is
copied, so the 64-bit counters of the source agree with them short of 2^64 elections
or entries. A node by itself may be sent any term: there they agree as long as it
stands in terms of 64 bits. Clock readings and timeouts are integers; a timeout may be negative.
-/
namespace Cnetmod.Raft

abbrev NodeId := String

inductive NodeRole where
  | follower | preCandidate | candidate | leader
  deriving DecidableEq

inductive EntryType where
  | noOp | command | configuration
  deriving DecidableEq

structure ConfigurationState where
  voters : List NodeId := []
  oldVoters : List NodeId := []
  learners : List NodeId := []
  deriving DecidableEq

def ConfigurationState.joint (c : ConfigurationState) : Bool := !c.oldVoters.isEmpty

structure LogEntry where
  index : Nat := 0
  term : Nat := 0
  type : EntryType := .command
  command : String := ""
  configuration : ConfigurationState := {}
  deriving DecidableEq

structure SnapshotMetadata where
  lastIncludedIndex : Nat := 0
  lastIncludedTerm : Nat := 0
  uri : String := ""
  configuration : ConfigurationState := {}
  deriving DecidableEq

def SnapshotMetadata.valid (m : SnapshotMetadata) : Bool := m.lastIncludedIndex != 0

/-- `voted_for` is the empty id while no vote has been cast in the term. -/
structure HardState where
  currentTerm : Nat := 0
  votedFor : NodeId := ""
  commitIndex : Nat := 0
  lastApplied : Nat := 0
  deriving DecidableEq

structure RequestVoteRequest where
  term : Nat := 0
  candidateId : NodeId := ""
  lastLogIndex : Nat := 0
  lastLogTerm : Nat := 0
  preVote : Bool := false
  deriving DecidableEq

structure RequestVoteResponse where
  term : Nat := 0
  voteGranted : Bool := false
  preVote : Bool := false
  deriving DecidableEq

structure TimeoutNowRequest where
  term : Nat := 0
  leaderId : NodeId := ""
  deriving DecidableEq

structure ReadIndexRequest where
  id : Nat := 0
  context : String := ""
  deriving DecidableEq

structure ReadIndexResponse where
  id : Nat := 0
  term : Nat := 0
  index : Nat := 0
  ready : Bool := false
  deriving DecidableEq

structure AppendEntriesRequest where
  term : Nat := 0
  leaderId : NodeId := ""
  prevLogIndex : Nat := 0
  prevLogTerm : Nat := 0
  entries : List LogEntry := []
  leaderCommit : Nat := 0
  readContexts : List ReadIndexRequest := []
  deriving DecidableEq

structure AppendEntriesResponse where
  term : Nat := 0
  success : Bool := false
  matchIndex : Nat := 0
  conflictIndex : Nat := 0
  conflictTerm : Nat := 0
  readAcks : List Nat := []
  deriving DecidableEq

/-- The chunk fields of the message belong to the transport and are not read by
the node. -/
structure InstallSnapshotRequest where
  term : Nat := 0
  leaderId : NodeId := ""
  metadata : SnapshotMetadata := {}
  uri : String := ""
  deriving DecidableEq

structure InstallSnapshotResponse where
  term : Nat := 0
  success : Bool := false
  deriving DecidableEq

structure RaftOptions where
  leaderLeaseTimeout : Int := 100
  checkQuorum : Bool := true
  leaseRead : Bool := false
  maxEntriesPerAppend : Nat := 128
  maxInflightAppend : Nat := 256

structure RaftSnapshotPolicy where
  logEntriesThreshold : Nat := 0
  minInterval : Int := 0
  uriPrefix : String := "raft-snapshot"
  deriving DecidableEq

inductive RaftErrc where
  | ok | staleTerm | logInconsistent | notLeader | notVoter | configurationError
  | snapshotRequired | storageError | stateMachineError | backpressure | stopped
  deriving DecidableEq

structure RaftError where
  code : RaftErrc := .ok
  message : String := ""
  deriving DecidableEq

/-- What a `catch` block of the source can see: a `std::exception` with its
`what()` text, or anything else. -/
inductive Thrown where
  | exception (what : String)
  | other
  deriving DecidableEq

/-- The two `catch` blocks that follow every storage or state-machine call. -/
def Thrown.toError (code : RaftErrc) (fallback : String) : Thrown → RaftError
  | .exception what => { code := code, message := what }
  | .other => { code := code, message := fallback }

end Cnetmod.Raft
