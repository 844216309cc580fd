import Cnetmod.Raft.Source.Node

/-!
# Raft node: public methods

The public methods of `raft_node` in `node.cpp`, in the order of the source. A
method returns the node it leaves and, where it has one, its result.
-/
namespace Cnetmod.Raft.RaftNode

def leaderLeaseValid (n : RaftNode) (timeout : Int) : Bool :=
  if n.role ≠ .leader then false
  else if n.conf.quorumSize = 1 then true
  else n.clock - n.lastQuorumContact ≤ timeout

/-- The index an append to `peer` starts from. -/
def nextIndexFor (n : RaftNode) (peer : NodeId) : Nat :=
  let nextIndex := match n.progress.get peer with
    | some p => p.nextIndex
    | none => n.lastLogIndex + 1
  max nextIndex n.mem.firstLogIndex

/-- A peer with a full window is sent no entries. -/
def inflightFull (n : RaftNode) (peer : NodeId) : Bool :=
  match n.progress.get peer with
  | some p => decide (p.state = .replicate) && p.inflight.full
  | none => false

/-- The role is not checked here. A next index past the log yields the previous
term 0 and no entries. -/
def makeAppendEntries (n : RaftNode) (peer : NodeId) : AppendEntriesRequest :=
  let nextIndex := n.nextIndexFor peer
  let prevIndex := nextIndex - 1
  { term := n.state.currentTerm
    leaderId := n.id
    prevLogIndex := prevIndex
    prevLogTerm := n.mem.termAt prevIndex
    entries := if n.inflightFull peer then []
      else n.mem.entriesFrom nextIndex n.cfg.options.maxEntriesPerAppend
    leaderCommit := n.state.commitIndex
    readContexts := (n.pendingReads.filter (!·.ready)).map fun read =>
      { id := read.id, context := read.context } }

def shouldSendSnapshot (n : RaftNode) (peer : NodeId) : Bool :=
  match n.progress.get peer with
  | none => false
  | some p => n.mem.loadSnapshotMetadata.valid && p.nextIndex < n.mem.firstLogIndex

def makeInstallSnapshot (n : RaftNode) : InstallSnapshotRequest :=
  let metadata := n.mem.loadSnapshotMetadata
  { term := n.state.currentTerm, leaderId := n.id, metadata := metadata, uri := metadata.uri }

def markSnapshotSent (n : RaftNode) (peer : NodeId) : RaftNode :=
  let snapshot := n.mem.loadSnapshotMetadata
  if snapshot.valid then
    { n with progress := n.progress.markSnapshot peer snapshot.lastIncludedIndex }
  else n

def markAppendSent (n : RaftNode) (peer : NodeId) (lastIndex : Nat) : RaftNode :=
  { n with progress := n.progress.markSent peer lastIndex }

def beginPreVote (n : RaftNode) : RaftNode × RequestVoteRequest :=
  if n.stopped then (n, {})
  else if !n.conf.contains n.id then (n, {})
  else
    ({ n with
        role := .preCandidate
        votesGranted := {n.id}
        votesRejected := ∅ },
      { term := n.state.currentTerm + 1
        candidateId := n.id
        lastLogIndex := n.lastLogIndex
        lastLogTerm := lastLogTerm n.mem
        preVote := true })

/-- The assignments of `begin_election` up to its `persist`. -/
def stand (n : RaftNode) : RaftNode :=
  { n with
    role := .candidate
    leaderId := ""
    state.currentTerm := n.state.currentTerm + 1
    state.votedFor := n.id
    votesGranted := {n.id}
    votesRejected := ∅
    history.stood := n.history.stood ++ [(n.state.currentTerm + 1, n.conf)] }

def beginElection (n : RaftNode) : RaftNode × RequestVoteRequest :=
  if n.stopped then (n, {})
  else if !n.conf.contains n.id then (n, {})
  else
    let n := n.stand.persist
    let req : RequestVoteRequest :=
      { term := n.state.currentTerm
        candidateId := n.id
        lastLogIndex := n.lastLogIndex
        lastLogTerm := lastLogTerm n.mem }
    (if n.conf.hasQuorum n.votesGranted then n.becomeLeader else n, req)

/-- The second half of `handle_request_vote`, in the term of the request. The
answer does not look at what `persist` did. -/
def castVote (n : RaftNode) (req : RequestVoteRequest) : RaftNode × RequestVoteResponse :=
  let canVote := n.state.votedFor = "" ∨ n.state.votedFor = req.candidateId
  let logOk := isLogAtLeastUpToDate n.mem req.lastLogIndex req.lastLogTerm
  if canVote ∧ logOk then
    let n := { n with state.votedFor := req.candidateId, leaderId := "" }
    let n := n.resetElectionDeadline.persist
    (n, { term := n.state.currentTerm, voteGranted := true })
  else (n, { term := n.state.currentTerm, voteGranted := false })

def handleRequestVote (n : RaftNode) (req : RequestVoteRequest) : RaftNode × RequestVoteResponse :=
  if n.stopped then
    (n, { term := n.state.currentTerm, voteGranted := false, preVote := req.preVote })
  else if !n.conf.contains n.id || !n.conf.contains req.candidateId then
    (n, { term := n.state.currentTerm, voteGranted := false, preVote := req.preVote })
  else if req.preVote then
    (n, { term := n.state.currentTerm
          voteGranted := decide (req.term ≥ n.state.currentTerm) && isLogAtLeastUpToDate n.mem req.lastLogIndex req.lastLogTerm
          preVote := true })
  else if req.term < n.state.currentTerm then
    (n, { term := n.state.currentTerm, voteGranted := false })
  else if req.term > n.state.currentTerm then (n.stepDown req.term).castVote req
  else n.castVote req

def handleVoteResponse (n : RaftNode) (voter : NodeId) (resp : RequestVoteResponse) : RaftNode × Bool :=
  if n.stopped then (n, false)
  else if resp.term > n.state.currentTerm then (n.stepDown resp.term, false)
  else if resp.preVote then
    if n.role ≠ .preCandidate ∨ !resp.voteGranted then (n, false)
    else
      let n := { n with votesGranted := insert voter n.votesGranted }
      (n, n.conf.hasQuorum n.votesGranted)
  else if n.role ≠ .candidate ∨ resp.term ≠ n.state.currentTerm then (n, false)
  else
    let n := if resp.voteGranted then { n with votesGranted := insert voter n.votesGranted }
      else { n with votesRejected := insert voter n.votesRejected }
    if n.conf.hasQuorum n.votesGranted then (n.becomeLeader, true) else (n, false)

def handleTimeoutNow (n : RaftNode) (req : TimeoutNowRequest) : RaftNode × Option RequestVoteRequest :=
  if n.stopped ∨ !n.conf.contains n.id ∨ !n.conf.contains req.leaderId then (n, none)
  else if req.term < n.state.currentTerm then (n, none)
  else
    let n := if req.term > n.state.currentTerm then n.stepDown req.term else n
    if n.leaderId ≠ "" ∧ n.leaderId ≠ req.leaderId then (n, none)
    else
      let (n, vote) := n.beginElection
      (n, some vote)

/-- The rejection that carries the follower's last index and no conflict. -/
def refuseAppend (n : RaftNode) : AppendEntriesResponse :=
  { term := n.state.currentTerm, success := false, matchIndex := n.lastLogIndex }

/-- Take over a leader's commit index, as far as the local log reaches. -/
def followCommit (n : RaftNode) (leaderCommit : Nat) : RaftNode :=
  if leaderCommit > n.state.commitIndex then
    { n with state.commitIndex := min leaderCommit n.lastLogIndex }.persist.applyCommitted
  else n

/-- `handle_append_entries` once term and sender are accepted. -/
def acceptEntries (n : RaftNode) (req : AppendEntriesRequest) : RaftNode × AppendEntriesResponse :=
  match LogManager.appendFromLeader n.store req.prevLogIndex req.prevLogTerm req.entries with
  | (.error thrown, store) =>
    let n := { n with store := store }.stop
      (thrown.toError .storageError "append entries storage failure")
    (n, n.refuseAppend)
  | (.ok appended, store) =>
    let n := { n with store := store }
    if !appended.success then
      (n, { term := n.state.currentTerm
            success := false
            matchIndex := appended.matchIndex
            conflictIndex := appended.conflictIndex
            conflictTerm := appended.conflictTerm })
    else
      let n := n.followCommit req.leaderCommit
      ({ n with
          history.acked := n.history.acked ++ n.mem.entries.filter (·.index ≤ appended.matchIndex) },
        { term := n.state.currentTerm
          success := true
          matchIndex := appended.matchIndex
          readAcks := req.readContexts.map (·.id) })

/-- Follow the sender of an accepted request: leave any other role or an older
term, and note the leader. -/
def follow (n : RaftNode) (term : Nat) (leaderId : NodeId) : RaftNode :=
  let n := if term > n.state.currentTerm ∨ n.role ≠ .follower then n.stepDown term else n
  { n with leaderId := leaderId }.resetElectionDeadline

def handleAppendEntries (n : RaftNode) (req : AppendEntriesRequest) : RaftNode × AppendEntriesResponse :=
  if n.stopped then (n, n.refuseAppend)
  else if req.term < n.state.currentTerm then (n, n.refuseAppend)
  else if !n.conf.contains req.leaderId then (n, n.refuseAppend)
  else (n.follow req.term req.leaderId).acceptEntries req

def handleAppendEntriesResponse (n : RaftNode) (peer : NodeId) (resp : AppendEntriesResponse) : RaftNode × Bool :=
  if n.stopped then (n, false)
  else if resp.term > n.state.currentTerm then (n.stepDown resp.term, false)
  else if n.role ≠ .leader ∨ resp.term ≠ n.state.currentTerm then (n, false)
  else if resp.success then
    let n := { n with progress := n.progress.markReplicated peer resp.matchIndex }
    let n := resp.readAcks.foldl (fun n id => n.acknowledgeRead peer id) n
    (n.refreshLeaderQuorum.advanceCommitIndex, true)
  else
    ({ n with
        progress := n.progress.markRejected peer (resp.matchIndex + 1) resp.conflictIndex }, false)

/-- The members a restored snapshot sets. One that names no voters keeps `conf_`. -/
def adoptSnapshot (n : RaftNode) (metadata : SnapshotMetadata) : RaftNode :=
  { n with
    conf := if metadata.configuration.voters.isEmpty then n.conf
      else Configuration.ofState metadata.configuration
    history.committedConf := if metadata.configuration.voters.isEmpty then
      n.history.committedConf else Configuration.ofState metadata.configuration
    state.commitIndex := max n.state.commitIndex metadata.lastIncludedIndex
    state.lastApplied := max n.state.lastApplied metadata.lastIncludedIndex }

/-- The snapshot is not compared with the commit index or the log. -/
def handleInstallSnapshot (n : RaftNode) (req : InstallSnapshotRequest) : RaftNode × InstallSnapshotResponse :=
  let refused := fun n : RaftNode =>
    (n, { term := n.state.currentTerm, success := false : InstallSnapshotResponse })
  if n.stopped then refused n
  else if req.term < n.state.currentTerm then refused n
  else if !n.conf.contains req.leaderId && !n.conf.empty then refused n
  else
    let n := n.follow req.term req.leaderId
    let metadata := if req.uri ≠ "" then { req.metadata with uri := req.uri } else req.metadata
    match n.fsm.loadSnapshot metadata req.uri with
    | (.error error, fsm) => refused ({ n with fsm := fsm }.stop error)
    | (.ok (), fsm) =>
      let n := { n with fsm := fsm }
      match LogManager.restoreSnapshot n.store metadata with
      | (.error thrown, store) =>
        refused ({ n with store := store }.stop (thrown.toError .storageError "snapshot restore storage failure"))
      | (.ok restored, store) =>
        let n := { n with store := store }
        if !restored.success then refused n
        else
          let n := (n.adoptSnapshot metadata).persist
          (n, { term := n.state.currentTerm, success := true })

def handleInstallSnapshotResponse (n : RaftNode) (peer : NodeId) (resp : InstallSnapshotResponse) : RaftNode × Bool :=
  if n.stopped then (n, false)
  else if resp.term > n.state.currentTerm then (n.stepDown resp.term, false)
  else if n.role ≠ .leader ∨ resp.term ≠ n.state.currentTerm ∨ !resp.success then (n, false)
  else match n.progress.get peer with
    | none => (n, false)
    | some p =>
      if p.pendingSnapshot = 0 then (n, false)
      else
        let n := { n with progress := n.progress.markReplicated peer p.pendingSnapshot }
        (n.refreshLeaderQuorum.advanceCommitIndex, true)

def appendCommand (n : RaftNode) (command : String) : RaftNode × Except RaftError LogEntry :=
  if n.stopped then (n, .error n.fatalError)
  else if n.role ≠ .leader then (n, .error (notLeader "append_command requires leader role"))
  else
    match LogManager.appendAsLeader n.store n.state.currentTerm command with
    | (.error thrown, store) =>
      let n := { n with store := store }.stop
        (thrown.toError .storageError "leader append storage failure")
      (n, .error n.fatalError)
    | (.ok entry, store) =>
      let n := { n with store := store }
      (if n.conf.quorumSize = 1 then n.commitTo entry.index else n, .ok entry)

/-- The five membership calls of the source. -/
inductive ConfigurationChange where
  | enterJoint (newVoters : List NodeId)
  | leaveJoint
  | setLearners (learners : List NodeId)
  | promoteLearner (id : NodeId)
  | removeNode (id : NodeId)
  deriving DecidableEq

def ConfigurationChange.apply (conf : Configuration) : ConfigurationChange → Except RaftError Configuration
  | .enterJoint newVoters => conf.withJoint newVoters
  | .leaveJoint => conf.leaveJoint
  | .setLearners learners => conf.withLearners learners
  | .promoteLearner id => conf.promoteLearner id
  | .removeNode id => conf.removeMember id

def configurationPending (n : RaftNode) : Bool :=
  match n.pendingConfigurationIndex with
  | some index => index > n.state.commitIndex
  | none => false

/-- The common body of the five membership calls. -/
def changeConfiguration (n : RaftNode) (change : ConfigurationChange) : RaftNode × Except RaftError LogEntry :=
  if n.stopped then (n, .error n.fatalError)
  else if n.configurationPending then
    (n, .error { code := .configurationError, message := "configuration change already pending" })
  else match change.apply n.conf with
    | .error error => (n, .error error)
    | .ok next => n.appendConfiguration next

def enterJointConfiguration (n : RaftNode) (newVoters : List NodeId) :=
  n.changeConfiguration (.enterJoint newVoters)

def leaveJointConfiguration (n : RaftNode) := n.changeConfiguration .leaveJoint

def setLearners (n : RaftNode) (learners : List NodeId) :=
  n.changeConfiguration (.setLearners learners)

def promoteLearner (n : RaftNode) (id : NodeId) := n.changeConfiguration (.promoteLearner id)

def removeNode (n : RaftNode) (id : NodeId) := n.changeConfiguration (.removeNode id)

def transferLeader (n : RaftNode) (target : NodeId) : RaftNode × Except RaftError (Option TimeoutNowRequest) :=
  if n.stopped then (n, .error n.fatalError)
  else if n.role ≠ .leader then (n, .error (notLeader "leader transfer requires leader role"))
  else if target = n.id then (n, .ok none)
  else if !n.conf.contains target then
    (n, .error { code := .notVoter, message := "leader transfer target must be a voter" })
  else match n.makeTimeoutNow target with
    | some request => ({ n with pendingLeaderTransfer := none }, .ok (some request))
    | none => ({ n with pendingLeaderTransfer := some target }, .ok none)

def takePendingLeaderTransfer (n : RaftNode) (peer : NodeId) : RaftNode × Option TimeoutNowRequest :=
  if n.pendingLeaderTransfer ≠ some peer then (n, none)
  else match n.makeTimeoutNow peer with
    | some request => ({ n with pendingLeaderTransfer := none }, some request)
    | none => (n, none)

/-- `conf_`, not the last committed configuration, goes into the metadata. -/
def createSnapshot (n : RaftNode) (uri : String) : RaftNode × Except RaftError SnapshotMetadata :=
  if n.stopped then (n, .error n.fatalError)
  else if n.state.commitIndex = 0 then
    (n, .error { code := .snapshotRequired
                 message := "cannot create snapshot before any committed log" })
  else
    let metadata : SnapshotMetadata :=
      { lastIncludedIndex := n.state.commitIndex
        lastIncludedTerm := n.mem.termAt n.state.commitIndex
        uri := uri
        configuration := n.conf.state }
    let failed := fun n : RaftNode => (n, (.error n.fatalError : Except RaftError SnapshotMetadata))
    match n.fsm.saveSnapshot metadata uri with
    | (.error error, fsm) => failed ({ n with fsm := fsm }.stop error)
    | (.ok (), fsm) =>
      let n := { n with fsm := fsm }
      match n.store.saveSnapshotMetadata metadata with
      | (.error thrown, store) =>
        failed ({ n with store := store }.stop (thrown.toError .storageError "snapshot metadata storage failure"))
      | (.ok (), store) =>
        match LogManager.compactPrefix store (metadata.lastIncludedIndex + 1) with
        | (.error thrown, store) =>
          failed ({ n with store := store }.stop (thrown.toError .storageError "snapshot metadata storage failure"))
        | (.ok (), store) => ({ n with store := store }, .ok metadata)

def snapshotUri (n : RaftNode) (policy : RaftSnapshotPolicy) : String :=
  (if policy.uriPrefix = "" then "raft-snapshot" else policy.uriPrefix) ++ "-" ++
    toString n.state.currentTerm ++ "-" ++ toString n.state.commitIndex ++ ".snapshot"

def maybeCreateSnapshot (n : RaftNode) (policy : RaftSnapshotPolicy) : RaftNode × Except RaftError (Option SnapshotMetadata) :=
  if policy.logEntriesThreshold = 0 then (n, .ok none)
  else if n.stopped then (n, .error n.fatalError)
  else if n.state.commitIndex ≤ n.mem.loadSnapshotMetadata.lastIncludedIndex then (n, .ok none)
  else
    let compactable := n.state.commitIndex + 1 - n.mem.firstLogIndex
    if compactable < policy.logEntriesThreshold then (n, .ok none)
    else if n.lastAutoSnapshot ≠ 0 ∧ n.clock - n.lastAutoSnapshot < policy.minInterval then
      (n, .ok none)
    else match n.createSnapshot (n.snapshotUri policy) with
      | (n, .error error) => (n, .error error)
      | (n, .ok created) => ({ n with lastAutoSnapshot := n.clock }, .ok (some created))

/-- `pending_reads_[read.id] = read` on a map kept in key order. -/
def putRead (read : PendingRead) : List PendingRead → List PendingRead
  | [] => [read]
  | head :: rest =>
    if read.id < head.id then read :: head :: rest
    else if read.id = head.id then read :: rest
    else head :: putRead read rest

def readIndex (n : RaftNode) (request : ReadIndexRequest) : RaftNode × Except RaftError ReadIndexResponse :=
  if n.stopped then (n, .error n.fatalError)
  else if n.role ≠ .leader then (n, .error (notLeader "read_index requires leader role"))
  else
    let options := n.cfg.options
    let ready := n.conf.hasQuorum {n.id} ||
      (options.leaseRead && options.checkQuorum && n.leaderLeaseValid options.leaderLeaseTimeout)
    let pending : PendingRead :=
      { id := request.id
        term := n.state.currentTerm
        index := n.state.commitIndex
        context := request.context
        acked := {n.id}
        createdAt := n.clock
        ready := ready }
    ({ n with pendingReads := putRead pending n.pendingReads },
      .ok { id := request.id
            term := n.state.currentTerm
            index := n.state.commitIndex
            ready := ready })

def consumeReadIndex (n : RaftNode) (id : Nat) : RaftNode × Option ReadIndexResponse :=
  match n.pendingReads.find? (·.id = id) with
  | none => (n, none)
  | some read =>
    if !read.ready then (n, none)
    else
      ({ n with pendingReads := n.pendingReads.filter (·.id ≠ id) },
        some { id := read.id, term := read.term, index := read.index, ready := true })

def expireReadIndexes (n : RaftNode) (timeout : Int) : RaftNode × Nat :=
  let expired := fun read : PendingRead => !read.ready && decide (n.clock - read.createdAt ≥ timeout)
  ({ n with pendingReads := n.pendingReads.filter fun read => !expired read }, n.pendingReads.countP expired)

def checkLeaderQuorum (n : RaftNode) (timeout : Int) : RaftNode × Bool :=
  if n.stopped then (n, false)
  else if n.role ≠ .leader then (n, true)
  else if n.leaderLeaseValid timeout then (n, true)
  else (n.stepDown n.state.currentTerm, false)

/-- A process restart: a new node over the store the old one left. -/
def restart (n : RaftNode) (machine : Option StateMachine) (clock : Int) : RaftNode :=
  let fresh := create n.cfg n.store machine clock
  { fresh with history := { n.history with committedConf := fresh.conf } }

end Cnetmod.Raft.RaftNode
